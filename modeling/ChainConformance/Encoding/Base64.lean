import ChainConformance.Bytes

/-!
# Base-64 text with padding

Three bytes are four symbols; a last group of one or two bytes is filled up with `=`.
`Base64.decode?` reads four symbols at a time, allows padding in every group and refuses unused
bits that are not zero.
-/

namespace ChainConformance.Base64

/-- The symbol of a number below 64. -/
def symbol (n : Nat) : Char :=
  if n < 26 then Char.ofNat (65 + n)
  else if n < 52 then Char.ofNat (71 + n)
  else if n < 62 then Char.ofNat (n - 4)
  else if n = 62 then '+' else '/'

/-- The number of a symbol. -/
def value? (c : Char) : Option Nat :=
  if 'A' ≤ c ∧ c ≤ 'Z' then some (c.toNat - 65)
  else if 'a' ≤ c ∧ c ≤ 'z' then some (c.toNat - 71)
  else if '0' ≤ c ∧ c ≤ '9' then some (c.toNat + 4)
  else if c = '+' then some 62
  else if c = '/' then some 63
  else none

def encode : Bytes → List Char
  | [] => []
  | [a] => [symbol (a.toNat / 4), symbol (a.toNat % 4 * 16), '=', '=']
  | [a, b] =>
    [symbol (a.toNat / 4), symbol (a.toNat % 4 * 16 + b.toNat / 16), symbol (b.toNat % 16 * 4), '=']
  | a :: b :: c :: rest =>
    symbol (a.toNat / 4) :: symbol (a.toNat % 4 * 16 + b.toNat / 16) ::
      symbol (b.toNat % 16 * 4 + c.toNat / 64) :: symbol (c.toNat % 64) :: encode rest

/-- The bytes of one group of four symbols. -/
def decodeGroup? (a b c d : Char) : Option Bytes := do
  let x ← value? a
  let y ← value? b
  if c = '=' ∧ d = '=' then
    guard (y % 16 = 0)
    return [UInt8.ofNat (x * 4 + y / 16)]
  let z ← value? c
  if d = '=' then
    guard (z % 4 = 0)
    return [UInt8.ofNat (x * 4 + y / 16), UInt8.ofNat (y % 16 * 16 + z / 4)]
  let w ← value? d
  return [UInt8.ofNat (x * 4 + y / 16), UInt8.ofNat (y % 16 * 16 + z / 4),
    UInt8.ofNat (z % 4 * 64 + w)]

def decode? : List Char → Option Bytes
  | [] => some []
  | a :: b :: c :: d :: rest => do
    let group ← decodeGroup? a b c d
    let others ← decode? rest
    return group ++ others
  | _ => none

end ChainConformance.Base64
