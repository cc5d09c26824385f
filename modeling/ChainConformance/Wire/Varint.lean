import ChainConformance.Bytes

/-!
# Varints

A number below 2^64 is written in groups of seven bits, the lowest first; every byte but the last
has its high bit set. The reader accepts at most ten bytes, also when fewer would do, and a tenth
byte only if it is 0 or 1.
-/

namespace ChainConformance.Wire

/-- The varint of `n`. -/
def varint (n : Nat) : Bytes :=
  if n < 128 then [UInt8.ofNat n] else UInt8.ofNat (128 + n % 128) :: varint (n / 128)
termination_by n
decreasing_by omega

/-- Reads a varint of which `place` bytes have been read; returns the number with the bytes after
it, or nothing if the bytes end too early or the number does not fit. -/
def readVarint? (place : Nat) : Bytes → Option (Nat × Bytes)
  | [] => none
  | x :: rest =>
    if place = 9 then if x < 2 then some (x.toNat, rest) else none
    else if x < 128 then some (x.toNat, rest)
    else (readVarint? (place + 1) rest).map fun r => (x.toNat - 128 + 128 * r.1, r.2)

end ChainConformance.Wire
