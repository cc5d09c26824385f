import ChainConformance.Proofs.Asn1.Strict
import Mathlib.Algebra.Ring.Nat

/-!
# The form of what is written

The encoding rules ask for lengths in the definite form with as few octets as possible. `IsLength`
and `IsElement` say so without the writer. Proved here:

* `head?_minimal`: the shortest bytes of a number do not start with a zero;
* `isLength_length`, `isElement_encode`: what is written has the form that is asked for;
* `length_encode_eq`, `length_encode_le`: how long an element is.
-/

namespace ChainConformance

theorem Bytes.head?_minimal (n : Nat) : (minimal n).head? ≠ some 0 := by
  induction n using Nat.strongRecOn with
  | ind n ih =>
    rw [minimal]
    split
    · simp
    · next positive =>
      by_cases single : n / 256 = 0
      · -- the only byte is the number itself
        rw [single, minimal, dif_pos rfl, List.nil_append, List.head?_singleton]
        intro zero
        have value := congrArg UInt8.toNat (Option.some.inj zero)
        rw [UInt8.toNat_ofNat', UInt8.toNat_zero] at value
        omega
      · have first := ih (n / 256) (by omega)
        rw [minimal, dif_neg single] at first
        rw [minimal, dif_neg single, List.head?_append]
        simpa using first

namespace Der

/-- The octets are a length in the definite form, as short as it can be: one octet for what is below
128, else the number of further octets, which denote the length and do not start with a zero. -/
inductive IsLength : Nat → Bytes → Prop
  | short {x : UInt8} (small : x.toNat < 128) : IsLength x.toNat [x]
  | long {count : UInt8} {octets : Bytes} (counted : count.toNat = 128 + octets.length)
      (known : count ≠ 0xFF) (shortest : octets.head? ≠ some 0)
      (large : 128 ≤ Bytes.toNat octets) : IsLength (Bytes.toNat octets) (count :: octets)

/-- The bytes are one element: the tag octet, the length of the contents, and the contents. -/
inductive IsElement (tag : UInt8) (contents : Bytes) : Bytes → Prop
  | mk {octets : Bytes} (length : IsLength contents.length octets) :
      IsElement tag contents (tag :: (octets ++ contents))

theorem isLength_length {n : Nat} (small : n < Strict.lengthLimit) : IsLength n (length n) := by
  by_cases short : n < 128
  · have first : (UInt8.ofNat n).toNat = n := by
      rw [UInt8.toNat_ofNat']
      omega
    have form := IsLength.short (x := UInt8.ofNat n) (first.symm ▸ short)
    rw [first] at form
    rw [length_of_short short]
    exact form
  · obtain ⟨count, counted, written, -, most⟩ := Strict.length_of_long short small
    have value := Bytes.toNat_minimal n
    have known : count ≠ 0xFF := by
      rintro rfl
      change 255 = _ at counted
      omega
    have form := IsLength.long counted known (Bytes.head?_minimal n) (by omega)
    rw [value] at form
    rw [written]
    exact form

theorem isElement_encode (tag : UInt8) {contents : Bytes}
    (small : contents.length < Strict.lengthLimit) :
    IsElement tag contents (encode tag contents) :=
  .mk (isLength_length small)

/-! ## How long it is -/

/-- How many bytes an element has whose contents have `n`: the form of the length changes at 128,
256, 65536 and 16777216. -/
def elementSize (n : Nat) : Nat :=
  n + if n < 128 then 2 else if n < 256 then 3 else if n < 65536 then 4
    else if n < 16777216 then 5 else 6

theorem elementSize_bounds (n : Nat) : n + 2 ≤ elementSize n ∧ elementSize n ≤ n + 6 := by
  unfold elementSize
  grind

theorem length_minimal_le_self (n : Nat) : (Bytes.minimal n).length ≤ n := by
  induction n using Nat.strongRecOn with
  | ind n ih =>
    by_cases zero : n = 0
    · rw [zero, Bytes.minimal, dif_pos rfl]
      exact Nat.le_refl 0
    · have := ih (n / 256) (by omega)
      rw [length_minimal_div zero]
      omega

/-- A rough bound, which needs no bound on the contents. -/
theorem length_encode_le (tag : UInt8) (contents : Bytes) :
    (encode tag contents).length ≤ 2 * contents.length + 2 := by
  have := length_minimal_le_self contents.length
  rw [length_encode, length_length]
  split <;> omega

theorem length_minimal_eq (width : Nat) {n : Nat} (least : 256 ^ width ≤ n)
    (most : n < 256 ^ (width + 1)) : (Bytes.minimal n).length = width + 1 := by
  induction width generalizing n with
  | zero =>
    have single : n / 256 = 0 := by omega
    rw [length_minimal_div (by omega), single, Bytes.minimal, dif_pos rfl]
    rfl
  | succ width ih =>
    have positive : 0 < 256 ^ (width + 1) := Nat.pow_pos (by decide)
    rw [length_minimal_div (by omega), ih]
    · exact (Nat.le_div_iff_mul_le (by decide)).mpr (by rwa [← Nat.pow_succ])
    · exact Nat.div_lt_of_lt_mul (by rwa [Nat.mul_comm, ← Nat.pow_succ])

theorem length_encode_eq (tag : UInt8) {contents : Bytes}
    (small : contents.length < Strict.lengthLimit) :
    (encode tag contents).length = elementSize contents.length := by
  rw [length_encode, length_length, elementSize]
  have limit : Strict.lengthLimit = 268435456 := rfl
  split
  · omega
  · split
    · rw [length_minimal_eq 0 (by omega) (by omega)]
      omega
    · split
      · rw [length_minimal_eq 1 (by omega) (by omega)]
        omega
      · split
        · rw [length_minimal_eq 2 (by omega) (by omega)]
          omega
        · rw [length_minimal_eq 3 (by omega) (by omega)]
          omega

end Der

end ChainConformance
