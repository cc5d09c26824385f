import ChainConformance.Text.Numeral

/-!
# JSON values

A value as it was written: objects keep their members in order and with repetitions, a string keeps
whether it was written without escapes, and a number that is no integer keeps its text. The
functions `Json.str`, `Json.nat`, `Json.obj` and `Json.list` build the values of this library.
-/

namespace ChainConformance

/-- A string between quotes. `text` is absent if half of a surrogate pair stands alone in it, or a
byte that is part of no character. -/
structure Json.Literal where
  text : Option String
  /-- Written without a backslash. -/
  plain : Bool
  deriving DecidableEq, Repr

inductive Json where
  | null
  | bool (b : Bool)
  | int (n : Int)
  /-- A number with a fraction, an exponent or a negated zero. -/
  | decimal (text : String)
  | string (s : Json.Literal)
  | array (items : List Json)
  | object (members : List (Json.Literal × Json))
  deriving Inhabited, Repr

namespace Json

/-- Whether the character is written between quotes without a backslash. -/
def isPlain (c : Char) : Bool := c ≠ '"' && c ≠ '\\' && 0x20 ≤ c.toNat

def Literal.ofString (s : String) : Literal := ⟨some s, s.toList.all isPlain⟩

def str (s : String) : Json := .string (.ofString s)

def nat (n : Nat) : Json := .int n

def list {α : Type} (f : α → Json) (xs : List α) : Json := .array (xs.map f)

def obj (members : List (String × Json)) : Json :=
  .object (members.map fun m => (.ofString m.1, m.2))

/-- The value, or `null` if there is none. -/
def option {α : Type} (f : α → Json) : Option α → Json
  | none => .null
  | some x => f x

end Json

end ChainConformance
