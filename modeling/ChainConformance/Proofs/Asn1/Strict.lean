import ChainConformance.Asn1.Strict
import ChainConformance.Proofs.Asn1.Writer
import Mathlib.Control.Basic
import Mathlib.Data.Option.Basic

/-!
# What is read strictly

Strict reading and writing are inverse to each other. Proved here:

* `Bytes.toNat_minimal`: the shortest bytes of a number denote it;
* `length?_eq_some_iff`, `element?_eq_some_iff`: what is read off the front is what the writer makes
  of the value, and of nothing else;
* `inside?_encode`: an element whose contents are read with a reader of their own;
* `many?_flatMap`: values written one after the other.
-/

namespace ChainConformance

namespace Bytes

theorem toNat_append_singleton (b : Bytes) (x : UInt8) :
    toNat (b ++ [x]) = 256 * toNat b + x.toNat := by
  simp [toNat]

theorem toNat_minimal (n : Nat) : toNat (minimal n) = n := by
  induction n using Nat.strongRecOn with
  | ind n ih =>
    rw [minimal]
    split
    · next zero => rw [zero]; rfl
    · next positive =>
      rw [toNat_append_singleton, ih (n / 256) (by omega), UInt8.toNat_ofNat']
      omega

theorem length_minimal_le {width n : Nat} (h : n < Nat.pow 256 width) :
    (minimal n).length ≤ width := by
  induction width generalizing n with
  | zero =>
    have zero : n = 0 := Nat.lt_one_iff.mp h
    rw [zero, minimal, dif_pos rfl]
    exact Nat.le_refl 0
  | succ width ih =>
    by_cases zero : n = 0
    · rw [zero, minimal, dif_pos rfl]
      exact Nat.zero_le _
    · have less : n / 256 < Nat.pow 256 width := by
        refine Nat.div_lt_of_lt_mul ?_
        rw [Nat.mul_comm]
        exact h
      rw [Der.length_minimal_div zero]
      exact Nat.succ_le_succ (ih less)

end Bytes

namespace Strict

/-! ## Lengths -/

/-- The octets of a length that does not fit in one. -/
theorem length_of_long {n : Nat} (long : ¬ n < 128) (small : n < lengthLimit) :
    ∃ x : UInt8, x.toNat = 128 + (Bytes.minimal n).length ∧ Der.length n = x :: Bytes.minimal n ∧
      1 ≤ (Bytes.minimal n).length ∧ (Bytes.minimal n).length ≤ 4 := by
  have most : (Bytes.minimal n).length ≤ 4 :=
    Bytes.length_minimal_le (Nat.lt_trans small (by decide))
  have least : 1 ≤ (Bytes.minimal n).length := by
    rw [Der.length_minimal_div (by omega)]
    exact Nat.le_add_left 1 _
  refine ⟨UInt8.ofNat (128 + (Bytes.minimal n).length), ?_, if_neg long, least, most⟩
  rw [UInt8.toNat_ofNat']
  omega

theorem length?_append {n : Nat} (small : n < lengthLimit) (rest : Bytes) :
    length? (Der.length n ++ rest) = some (n, rest) := by
  by_cases short : n < 128
  · have first : (UInt8.ofNat n).toNat = n := by
      rw [UInt8.toNat_ofNat']
      omega
    have low : UInt8.ofNat n < 128 := UInt8.lt_iff_toNat_lt.mpr (by rw [first]; exact short)
    simp [Der.length_of_short short, length?, low, first]
  · obtain ⟨x, count, octets, least, most⟩ := length_of_long short small
    have high : ¬ x < 128 := by
      rw [UInt8.lt_iff_toNat_lt, count]
      exact Nat.not_lt.mpr (Nat.le_add_right 128 _)
    simp [octets, length?, high, count, least, most, Bytes.toNat_minimal, small]

/-- A length is read off exactly the octets that are written for it. -/
theorem length?_eq_some_iff {s rest : Bytes} {n : Nat} :
    length? s = some (n, rest) ↔ n < lengthLimit ∧ s = Der.length n ++ rest := by
  constructor
  · intro read
    cases s with
    | nil => cases read
    | cons x s =>
      rw [length?] at read
      split at read
      · next low =>
        cases read
        have value : x.toNat < 128 := UInt8.lt_iff_toNat_lt.mp low
        refine ⟨Nat.lt_trans value (by decide), ?_⟩
        rw [Der.length_of_short value, UInt8.ofNat_toNat]
        rfl
      · simp only [Option.pure_def, Option.bind_eq_bind, Option.bind_eq_some_iff,
          Option.guard_eq_some', Option.some.injEq, Prod.mk.injEq] at read
        obtain ⟨-, -, -, ⟨small, octets⟩, rfl, rfl⟩ := read
        refine ⟨small, ?_⟩
        rw [octets, List.cons_append, List.take_append_drop]
  · rintro ⟨small, rfl⟩
    exact length?_append small rest

/-! ## Elements -/

/-- An element is read off exactly the bytes that are written for it. -/
theorem element?_eq_some_iff {s rest : Bytes} {e : Element} :
    element? s = some (e, rest) ↔
      isTag e.tag = true ∧ e.contents.length < lengthLimit ∧ s = e.encode ++ rest := by
  cases s with
  | nil => simp [element?, Element.encode, Der.encode]
  | cons tag s =>
    simp only [element?, Option.pure_def, Option.bind_eq_bind, Option.bind_eq_some_iff,
      Option.guard_eq_some', Option.some.injEq, Prod.mk.injEq, Prod.exists, length?_eq_some_iff,
      exists_const]
    constructor
    · rintro ⟨known, n, after, ⟨small, rfl⟩, enough, rfl, rfl⟩
      have size : (after.take n).length = n := List.length_take_of_le enough
      refine ⟨known, by rw [size]; exact small, ?_⟩
      simp [Element.encode, Der.encode, size]
    · rintro ⟨known, small, bytes⟩
      obtain ⟨rfl, rfl⟩ := List.cons.inj bytes
      refine ⟨known, e.contents.length, e.contents ++ rest, ⟨small, List.append_assoc ..⟩, ?_⟩
      simp

theorem element?_encode {e : Element} (known : isTag e.tag = true)
    (small : e.contents.length < lengthLimit) (rest : Bytes) :
    element? (e.encode ++ rest) = some (e, rest) :=
  element?_eq_some_iff.mpr ⟨known, small, rfl⟩

section
variable {α : Type} {f : Bytes → Option (α × Bytes)}

/-- Contents that are read up to their end are read inside of an element. -/
theorem inside?_encode {tag : UInt8} {contents : Bytes} {x : α} (known : isTag tag = true)
    (small : contents.length < lengthLimit) (whole : f contents = some (x, [])) (rest : Bytes) :
    inside? tag f (Der.encode tag contents ++ rest) = some (x, rest) := by
  have element := element?_encode (e := ⟨tag, contents⟩) known small rest
  rw [Element.encode] at element
  simp [inside?, contents?, element, whole]

/-! ## One after the other -/

variable {write : α → Bytes}

theorem manyFrom?_flatMap {xs : List α}
    (undone : ∀ x ∈ xs, write x ≠ [] ∧ ∀ rest, f (write x ++ rest) = some (x, rest)) {steps : Nat}
    (enough : (xs.flatMap write).length ≤ steps) :
    manyFrom? f steps (xs.flatMap write) = some xs := by
  induction xs generalizing steps with
  | nil => rw [List.flatMap_nil, manyFrom?]
  | cons x xs ih =>
    obtain ⟨some, read⟩ := undone x List.mem_cons_self
    obtain ⟨first, others, written⟩ := List.exists_cons_of_ne_nil some
    rw [List.flatMap_cons] at enough ⊢
    rw [List.length_append, written, List.length_cons] at enough
    cases steps with
    | zero => omega
    | succ steps =>
      have shorter : (xs.flatMap write).length ≤ steps := by omega
      have later := ih (fun y member => undone y (List.mem_cons_of_mem x member)) shorter
      have now := read (xs.flatMap write)
      rw [written, List.cons_append] at now ⊢
      simp [manyFrom?, now, later]

/-- What is written one after the other is read back, if each value is read off what is written for
it, and that is never empty. -/
theorem many?_flatMap {xs : List α}
    (undone : ∀ x ∈ xs, write x ≠ [] ∧ ∀ rest, f (write x ++ rest) = some (x, rest)) :
    many? f (xs.flatMap write) = some (xs, []) := by
  rw [many?, manyFrom?_flatMap undone (Nat.le_refl _), Option.map_some]

end

end Strict

end ChainConformance
