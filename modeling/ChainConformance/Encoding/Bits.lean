import ChainConformance.Bytes

/-!
# Bits

Numbers as lists of bits, most significant first, and lists cut into groups of equal size.
-/

namespace ChainConformance.Bits

/-- The lowest `width` bits of `n`, most significant first. -/
def ofNat : (width : Nat) → Nat → List Bool
  | 0, _ => []
  | width + 1, n => n.testBit width :: ofNat width n

/-- The number with these bits, most significant first. -/
def toNat (bits : List Bool) : Nat := bits.foldl (fun n b => 2 * n + b.toNat) 0

/-- The bits of the bytes in order. -/
def ofBytes (b : Bytes) : List Bool := b.flatMap fun x => ofNat 8 x.toNat

/-- Consecutive groups of `size + 1` elements; the last one may be shorter. -/
def groups {α : Type} (size : Nat) : List α → List (List α)
  | [] => []
  | x :: rest => (x :: rest.take size) :: groups size (rest.drop size)
termination_by xs => xs.length
decreasing_by simp only [List.length_drop, List.length_cons]; omega

/-- The group with `false` added at the end up to `size` bits. -/
def pad (size : Nat) (group : List Bool) : List Bool :=
  group ++ List.replicate (size - group.length) false

end ChainConformance.Bits
