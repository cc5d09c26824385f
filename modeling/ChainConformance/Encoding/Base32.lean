import ChainConformance.Encoding.Bits

/-!
# Base-32 text without padding

Five bits a symbol, `A` to `Z` and `2` to `7`. `Base32.decode` refuses lengths that no byte string
has, symbols outside the alphabet, and text whose unused last bits are not zero, in this order.
-/

namespace ChainConformance.Base32

/-- Why a text is not the base-32 form of a byte string, with the offset of the fault. -/
inductive Fault where
  | length (offset : Nat)
  | symbol (offset : Nat)
  | trailingBits (offset : Nat)
  deriving DecidableEq, Repr

/-- The symbol of a number below 32. -/
def symbol (n : Nat) : UInt8 := if n < 26 then UInt8.ofNat (65 + n) else UInt8.ofNat (24 + n)

/-- The number of a symbol. -/
def value? (c : UInt8) : Option Nat :=
  if 65 ≤ c ∧ c ≤ 90 then some (c.toNat - 65)
  else if 50 ≤ c ∧ c ≤ 55 then some (c.toNat - 24)
  else none

/-- The base-32 text of a byte string, as bytes. -/
def encode (b : Bytes) : Bytes :=
  (Bits.groups 4 (Bits.ofBytes b)).map fun group => symbol (Bits.toNat (Bits.pad 5 group))

/-- The numbers of the symbols, the first of which stands at `offset`. -/
def values (offset : Nat) : Bytes → Except Fault (List Nat)
  | [] => .ok []
  | c :: rest =>
    match value? c with
    | none => .error (.symbol offset)
    | some n => (values (offset + 1) rest).map (n :: ·)

/-- The byte string of a base-32 text. -/
def decode (s : Bytes) : Except Fault Bytes :=
  if s.length % 8 = 1 ∨ s.length % 8 = 3 ∨ s.length % 8 = 6 then .error (.length (s.length - 1))
  else do
    let bits := (← values 0 s).flatMap (Bits.ofNat 5)
    let used := s.length * 5 / 8 * 8
    if (bits.drop used).any id then .error (.trailingBits (s.length - 1))
    else .ok ((Bits.groups 7 (bits.take used)).map fun byte => UInt8.ofNat (Bits.toNat byte))

end ChainConformance.Base32
