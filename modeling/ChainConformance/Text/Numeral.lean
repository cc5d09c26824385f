/-!
# Decimal numerals

`Text.decimal` writes a natural number, `Text.Numeral.read` reads one below a limit: an optional
plus sign and at least one ASCII digit. The first fault from the left counts, so a digit that
exceeds the limit hides a stray character after it.
-/

namespace ChainConformance.Text

/-- The decimal digits of `n`, without leading zeros. -/
def decimal (n : Nat) : String := String.ofList (Nat.toDigits 10 n)

namespace Numeral

/-- Why a text is no numeral. -/
inductive Fault where
  | empty
  | invalidDigit
  | tooLarge
  deriving DecidableEq, Repr

def Fault.message : Fault → String
  | .empty => "cannot parse integer from empty string"
  | .invalidDigit => "invalid digit found in string"
  | .tooLarge => "number too large to fit in target type"

/-- Whether the character is one of `0` to `9`. -/
def isDigit (c : Char) : Bool := '0' ≤ c && c ≤ '9'

def digitValue (c : Char) : Nat := c.toNat - '0'.toNat

/-- The digits of `s` appended to the value so far, which must stay below `limit`. -/
def readDigits (limit : Nat) : Nat → List Char → Except Fault Nat
  | value, [] => .ok value
  | value, c :: rest =>
    if isDigit c then
      if value * 10 + digitValue c < limit then readDigits limit (value * 10 + digitValue c) rest
      else .error .tooLarge
    else .error .invalidDigit

/-- The number below `limit` that a text denotes. -/
def read (limit : Nat) (s : List Char) : Except Fault Nat :=
  match s with
  | [] => .error .empty
  | ['+'] => .error .invalidDigit
  | '+' :: c :: rest => readDigits limit 0 (c :: rest)
  | c :: rest => readDigits limit 0 (c :: rest)

end Numeral

/-- One more than the largest index. -/
def indexLimit : Nat := UInt64.size

end ChainConformance.Text
