import ChainConformance.Asn1.Reader
import ChainConformance.Proofs.Asn1.Strict
import ChainConformance.Proofs.Outcome

/-!
# What is written can be read

The reader that accepts more than one form of an element reads those that are written. `Reads` says
that a reader gets a value from the front of anything that begins with given bytes. Proved here:

* `reads_element`, `reads_inside`, `reads_primitive`, `reads_bitString`: for single elements;
* `optional_encode`, `optional_of_other`: for elements that may be missing;
* `many_flatMap`, `all_flatMap`: for values one after the other.
-/

namespace ChainConformance.Der

variable {α : Type}

/-- The reader gets the value from the front of anything that begins with the bytes. -/
def Reads (f : Bytes → Except Fault (α × Bytes)) (s : Bytes) (x : α) : Prop :=
  ∀ rest, f (s ++ rest) = .ok (x, rest)

theorem Reads.alone {f : Bytes → Except Fault (α × Bytes)} {s : Bytes} {x : α}
    (reads : Reads f s x) : f s = .ok (x, []) := by
  have := reads []
  rwa [List.append_nil] at this

/-! ## Single elements -/

theorem take_append (front rest : Bytes) :
    take front.length (front ++ rest) = .ok (front, rest) := by
  rw [take, if_pos (by simp), List.take_left, List.drop_left]

theorem contentsLength_append {n : Nat} (small : n < UInt64.size) (rest : Bytes) :
    contentsLength (length n ++ rest) = .ok (n, rest) := by
  by_cases short : n < 128
  · have first : (UInt8.ofNat n).toNat = n := by
      rw [UInt8.toNat_ofNat']
      omega
    have low : UInt8.ofNat n < 128 := UInt8.lt_iff_toNat_lt.mpr (by rw [first]; exact short)
    simp [length_of_short short, contentsLength, low, first]
  · have most : (Bytes.minimal n).length ≤ 8 := Bytes.length_minimal_le small
    have least : 1 ≤ (Bytes.minimal n).length := by
      rw [length_minimal_div (by omega)]
      exact Nat.le_add_left 1 _
    have count : (UInt8.ofNat (128 + (Bytes.minimal n).length)).toNat =
        128 + (Bytes.minimal n).length := by
      rw [UInt8.toNat_ofNat']
      omega
    rw [length, if_neg short, List.cons_append, contentsLength]
    generalize UInt8.ofNat (128 + (Bytes.minimal n).length) = x at count
    have high : ¬ x < 128 := by
      rw [UInt8.lt_iff_toNat_lt, count]
      exact Nat.not_lt.mpr (Nat.le_add_right 128 _)
    have known : ¬ (x = 128 ∨ x = 255) := by
      rintro (rfl | rfl)
      · change 128 = _ at count
        omega
      · change 255 = _ at count
        omega
    have fits : ¬ (n < 127 ∨ UInt64.size ≤ n) := by omega
    rw [if_neg high, if_neg known, count, Nat.add_sub_cancel_left, take_append, ok_bind]
    simp only [Bytes.toNat_minimal, if_neg fits]
    rfl

/-- The element that is read where one is written. -/
def Element.of (tag : UInt8) (contents : Bytes) : Element :=
  ⟨tag.toNat / 64, tag.toNat / 32 % 2 = 1, tag.toNat % 32, contents, encode tag contents⟩

section
variable (tag : UInt8) (plain : tag.toNat % 32 ≠ 31) {contents : Bytes}
  (small : contents.length < UInt64.size)
include plain small

theorem header_encode (rest : Bytes) : header (encode tag contents ++ rest) =
    .ok (⟨tag.toNat / 64, tag.toNat / 32 % 2 = 1, tag.toNat % 32, contents.length⟩,
      contents ++ rest) := by
  rw [encode, List.cons_append, header, if_neg plain, ok_bind, List.append_assoc]
  simp only [contentsLength_append small, ok_bind]
  rfl

theorem reads_element : Reads element (encode tag contents) (.of tag contents) := by
  intro rest
  have raw : (encode tag contents ++ rest).take
      ((encode tag contents ++ rest).length - rest.length) = encode tag contents := by
    rw [List.length_append, Nat.add_sub_cancel, List.take_left]
  rw [element, header_encode tag plain small, ok_bind]
  simp only [take_append, ok_bind, raw]
  rfl

end

section
variable {number : Nat} (tag : UInt8) (same : tag.toNat % 32 = number) (plain : number ≠ 31)
  {contents : Bytes} (small : contents.length < UInt64.size)
include same plain small

theorem reads_withTag : Reads (withTag number) (encode tag contents) (.of tag contents) := by
  intro rest
  rw [withTag, reads_element tag (same ▸ plain) small, ok_bind]
  simp [Element.of, same, pure_eq_ok_iff]

theorem reads_primitive (simple : tag.toNat / 32 % 2 = 0) :
    Reads (primitive number) (encode tag contents) contents := by
  intro rest
  rw [primitive, reads_withTag tag same plain small, ok_bind]
  simp [Element.of, simple, pure_eq_ok_iff]

/-- What is read inside may leave bytes over. -/
theorem reads_inside {f : Bytes → Except Fault (α × Bytes)} {x : α}
    (read : ∃ left, f contents = .ok (x, left)) :
    Reads (inside number f) (encode tag contents) x := by
  intro rest
  obtain ⟨left, read⟩ := read
  rw [inside, reads_withTag tag same plain small, ok_bind]
  simp only [Element.of, read]
  rfl

theorem optional_encode (context : tag.toNat / 64 = 2) :
    Reads (optional number) (encode tag contents) (some (.of tag contents)) := by
  intro rest
  rw [optional, reads_element tag (same ▸ plain) small, ok_bind]
  simp [encode, Element.of, context, same, pure_eq_ok_iff]

end

theorem reads_bitString {contents : Bytes} (bits : isBitString contents = true)
    (small : contents.length < UInt64.size) :
    Reads bitString (encode 0x03 contents) contents := by
  intro rest
  have read : primitive 3 (encode 0x03 contents ++ rest) = .ok (contents, rest) :=
    reads_primitive 0x03 (by decide) (by decide) small (by decide) rest
  rw [bitString, read, ok_bind]
  simp [bits, pure_eq_ok_iff]

/-! ## Elements that may be missing -/

/-- An element of another class or with another number is left where it stands. -/
theorem optional_of_other {number : Nat} (tag : UInt8) (plain : tag.toNat % 32 ≠ 31)
    {contents : Bytes} (small : contents.length < UInt64.size)
    (other : ¬ (tag.toNat / 64 = 2 ∧ tag.toNat % 32 = number)) (rest : Bytes) :
    optional number (encode tag contents ++ rest) = .ok (none, encode tag contents ++ rest) := by
  have filled : ¬ (encode tag contents ++ rest).isEmpty = true := by simp [encode]
  rw [optional, if_neg filled, reads_element tag plain small, ok_bind]
  exact if_neg other

/-! ## One after the other -/

section
variable {β : Type} {f : Bytes → Except Fault (β × Bytes)} {write : α → Bytes} {value : α → β}
  {xs : List α}

/-- The values of what is written one after the other are read, if none of it is empty and nothing
can be read off no bytes. -/
theorem many_flatMap (reads : ∀ x ∈ xs, write x ≠ [] ∧ Reads f (write x) (value x))
    (ends : ∃ e, f [] = .error e) {fuel : Nat} (enough : (xs.flatMap write).length ≤ fuel) :
    many f fuel (xs.flatMap write) = (xs.map value, []) := by
  induction xs generalizing fuel with
  | nil =>
    obtain ⟨e, ends⟩ := ends
    cases fuel with
    | zero => rfl
    | succ fuel => rw [List.flatMap_nil, many, ends, List.map_nil]
  | cons x xs ih =>
    obtain ⟨some, read⟩ := reads x List.mem_cons_self
    have least := List.length_pos_iff.mpr some
    rw [List.flatMap_cons] at enough ⊢
    rw [List.length_append] at enough
    cases fuel with
    | zero => omega
    | succ fuel =>
      have later : many f fuel (xs.flatMap write) = (xs.map value, []) :=
        ih (fun y member => reads y (List.mem_cons_of_mem x member)) (by omega)
      simp only [many, read (xs.flatMap write), later, List.map_cons]

theorem all_flatMap (reads : ∀ x ∈ xs, write x ≠ [] ∧ Reads f (write x) (value x))
    (ends : ∃ e, f [] = .error e) : all f (xs.flatMap write) = .ok (xs.map value) := by
  rw [all, many_flatMap reads ends (Nat.le_refl _)]

end

theorem inside_nil (number : Nat) (f : Bytes → Except Fault (α × Bytes)) :
    inside number f [] = .error .truncated := rfl

end ChainConformance.Der
