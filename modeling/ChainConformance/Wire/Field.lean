import ChainConformance.Wire.Varint
import ChainConformance.Text.Numeral

/-!
# Fields on the wire

A message is a sequence of fields. Each starts with a key, a varint that holds the field's tag and
its wire type; the wire type says where the field ends. `Wire.skip` passes over a field that the
reader has no use for, nested groups included, and `Wire.packed` reads a run of varints.
-/

namespace ChainConformance.Wire

/-- How the contents of a field are delimited. -/
inductive WireType where
  | varint
  | sixtyFourBit
  | lengthDelimited
  | startGroup
  | endGroup
  | thirtyTwoBit
  deriving DecidableEq, Repr

def WireType.ofCode? : Nat → Option WireType
  | 0 => some .varint
  | 1 => some .sixtyFourBit
  | 2 => some .lengthDelimited
  | 3 => some .startGroup
  | 4 => some .endGroup
  | 5 => some .thirtyTwoBit
  | _ => none

def WireType.name : WireType → String
  | .varint => "Varint"
  | .sixtyFourBit => "SixtyFourBit"
  | .lengthDelimited => "LengthDelimited"
  | .startGroup => "StartGroup"
  | .endGroup => "EndGroup"
  | .thirtyTwoBit => "ThirtyTwoBit"

/-- Why bytes are no message. -/
inductive Fault where
  | invalidVarint
  | invalidTag
  | invalidWireType (code : Nat)
  | invalidKey (key : Nat)
  | unexpectedWireType (actual expected : WireType)
  | underflow
  | lengthExceeded
  | unexpectedEndGroup
  | recursionLimit
  deriving DecidableEq, Repr

def Fault.message : Fault → String
  | .invalidVarint => "invalid varint"
  | .invalidTag => "invalid tag value: 0"
  | .invalidWireType code => "invalid wire type value: " ++ Text.decimal code
  | .invalidKey key => "invalid key value: " ++ Text.decimal key
  | .unexpectedWireType actual expected =>
    "invalid wire type: " ++ actual.name ++ " (expected " ++ expected.name ++ ")"
  | .underflow => "buffer underflow"
  | .lengthExceeded => "delimited length exceeded"
  | .unexpectedEndGroup => "unexpected end group tag"
  | .recursionLimit => "recursion limit reached"

/-- Reads a varint. -/
def number (s : Bytes) : Except Fault (Nat × Bytes) :=
  match readVarint? 0 s with
  | none => .error .invalidVarint
  | some r => .ok r

/-- Reads the tag and the wire type that start a field. -/
def key (s : Bytes) : Except Fault ((Nat × WireType) × Bytes) := do
  let (n, rest) ← number s
  if UInt32.size ≤ n then throw (.invalidKey n)
  match WireType.ofCode? (n % 8) with
  | none => throw (.invalidWireType (n % 8))
  | some wire =>
    if n / 8 = 0 then throw .invalidTag
    return ((n / 8, wire), rest)

/-- What follows the next `n` bytes. -/
def advance (n : Nat) (s : Bytes) : Except Fault Bytes :=
  if n ≤ s.length then .ok (s.drop n) else .error .underflow

/-- Passes over the fields of a group up to its end, each with `skipInner`. Every field takes a
byte at least, so `steps` beyond the number of bytes are enough. -/
def skipGroup (skipInner : Nat → WireType → Bytes → Except Fault Bytes) (tag : Nat) :
    (steps : Nat) → Bytes → Except Fault Bytes
  | 0, _ => .error .invalidVarint
  | steps + 1, s => do
    let ((inner, wire), rest) ← key s
    if wire = .endGroup then
      if inner = tag then return rest else throw .unexpectedEndGroup
    skipGroup skipInner tag steps (← skipInner inner wire rest)

/-- Passes over the contents of a field, in which groups nest less than `depth` deep. -/
def skip : (depth : Nat) → (tag : Nat) → WireType → Bytes → Except Fault Bytes
  | 0, _, _, _ => .error .recursionLimit
  | depth + 1, tag, wire, s =>
    match wire with
    | .varint => (number s).map (·.2)
    | .sixtyFourBit => advance 8 s
    | .thirtyTwoBit => advance 4 s
    | .lengthDelimited => do
      let (n, rest) ← number s
      advance n rest
    | .startGroup => skipGroup (skip depth) tag (s.length + 1) s
    | .endGroup => .error .unexpectedEndGroup

/-- How deep groups may nest in a field that is passed over. -/
def maxDepth : Nat := 100

/-- Reads varints until no more than `after` bytes are left. -/
def numbersUntil (after : Nat) : (steps : Nat) → Bytes → Except Fault (List Nat × Bytes)
  | 0, s => .ok ([], s)
  | steps + 1, s => do
    if s.length ≤ after then
      if s.length = after then return ([], s) else throw .lengthExceeded
    let (n, rest) ← number s
    let (others, rest) ← numbersUntil after steps rest
    return (n :: others, rest)

/-- Reads a length and then varints over that many bytes. -/
def packed (s : Bytes) : Except Fault (List Nat × Bytes) := do
  let (n, rest) ← number s
  if rest.length < n then throw .underflow
  numbersUntil (rest.length - n) (rest.length + 1) rest

/-! ## Writing -/

/-- The key of a field. -/
def writeKey (tag code : Nat) : Bytes := varint (8 * tag + code)

/-- A number under a tag; zero is left out. -/
def writeNumber (tag n : Nat) : Bytes := if n = 0 then [] else writeKey tag 0 ++ varint n

/-- A packed list of numbers under a tag; the empty list is left out. -/
def writePacked (tag : Nat) (ns : List Nat) : Bytes :=
  if ns.isEmpty then []
  else
    let body := ns.flatMap varint
    writeKey tag 2 ++ varint body.length ++ body

end ChainConformance.Wire
