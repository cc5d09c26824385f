import ChainConformance.Client.Duration
import ChainConformance.CommandLine.Address
import ChainConformance.Error

/-!
# Values of arguments

What the text after an option or in a position has to be, and what it then means.
-/

namespace ChainConformance.CommandLine

/-- What a value has to be. -/
inductive ValueKind where
  | text
  /-- A text that is not empty. -/
  | path
  | index
  | indexSet
  | duration
  | port
  | address
  deriving DecidableEq, Repr

inductive Value where
  | text (s : String)
  | number (n : Nat)
  | indexSet (s : IndexSet)
  | duration (d : Duration)
  deriving DecidableEq, Repr

/-- Why a text is no value. -/
inductive ValueFault where
  | missing
  | invalid (reason : String)
  deriving DecidableEq, Repr

/-- The largest port. -/
def maximalPort : Int := 65535

/-- One more than the largest integer of 64 bits. -/
def integerLimit : Nat := 0x8000000000000000

/-- An integer of 64 bits with an optional sign. -/
def readInteger (s : String) : Except String Int :=
  match s.toList with
  | '-' :: c :: rest =>
    match Text.Numeral.readDigits (integerLimit + 1) 0 (c :: rest) with
    | .ok n => .ok (-(n : Int))
    | .error .tooLarge => .error "number too small to fit in target type"
    | .error fault => .error fault.message
  | digits =>
    ((Text.Numeral.read integerLimit digits).map Int.ofNat).mapError Text.Numeral.Fault.message

def readPort (s : String) : Except String Nat := do
  let n ← readInteger s
  if 0 ≤ n ∧ n ≤ maximalPort then return n.toNat
  throw (toString n ++ " is not in 0..=65535")

/-- The value that a text is. -/
def ValueKind.read (kind : ValueKind) (s : String) : Except ValueFault Value :=
  match kind with
  | .text => .ok (.text s)
  | .path => if s = "" then .error .missing else .ok (.text s)
  | .index =>
    match Text.Numeral.read Text.indexLimit s.toList with
    | .ok n => .ok (.number n)
    | .error fault => .error (.invalid fault.message)
  | .indexSet =>
    match IndexSet.read s with
    | .ok set => .ok (.indexSet set)
    | .error fault => .error (.invalid (Error.indexSet fault).message)
  | .duration =>
    match Duration.read s with
    | .ok d => .ok (.duration d)
    | .error fault => .error (.invalid fault.message)
  | .port =>
    match readPort s with
    | .ok n => .ok (.number n)
    | .error reason => .error (.invalid reason)
  | .address =>
    if Address.isValid s then .ok (.text s) else .error (.invalid "invalid IP address syntax")

end ChainConformance.CommandLine
