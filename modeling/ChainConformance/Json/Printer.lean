import ChainConformance.Json.Basic

/-!
# Printing JSON

`Json.compact` writes a value on one line without blanks, `Json.pretty` on several lines, two
blanks for each level. Strings escape the quote, the backslash and the controls below U+0020.
-/

namespace ChainConformance.Json

/-- How the parts of a value are set apart. -/
inductive Layout where
  | compact
  | pretty
  deriving DecidableEq, Repr

/-- The break before a part at the given depth. -/
def Layout.newline (layout : Layout) (depth : Nat) : List Char :=
  match layout with
  | .compact => []
  | .pretty => '\n' :: List.replicate (2 * depth) ' '

def Layout.colon : Layout → List Char
  | .compact => [':']
  | .pretty => [':', ' ']

/-- A lower-case hexadecimal digit. -/
def hexDigit (n : Nat) : Char := Nat.digitChar n

/-- One character between quotes. -/
def escape (c : Char) : List Char :=
  if c = '"' then ['\\', '"']
  else if c = '\\' then ['\\', '\\']
  else if c = '\n' then ['\\', 'n']
  else if c = '\r' then ['\\', 'r']
  else if c = '\t' then ['\\', 't']
  else if c.toNat = 8 then ['\\', 'b']
  else if c.toNat = 12 then ['\\', 'f']
  else if c.toNat < 0x20 then
    ['\\', 'u', '0', '0', hexDigit (c.toNat / 16), hexDigit (c.toNat % 16)]
  else [c]

def renderText (s : String) : List Char := '"' :: s.toList.flatMap escape ++ ['"']

/-- A string without a text is written as the empty one. -/
def Literal.render (s : Literal) : List Char := renderText (s.text.getD "")

/-- The decimal text of an integer. -/
def renderInt (n : Int) : List Char :=
  if n < 0 then '-' :: Nat.toDigits 10 n.natAbs else Nat.toDigits 10 n.natAbs

mutual

/-- The text of a value whose parts stand at a depth of one more than `depth`. -/
def render (layout : Layout) (depth : Nat) : Json → List Char
  | .null => ['n', 'u', 'l', 'l']
  | .bool true => ['t', 'r', 'u', 'e']
  | .bool false => ['f', 'a', 'l', 's', 'e']
  | .int n => renderInt n
  | .decimal text => text.toList
  | .string s => s.render
  | .array [] => ['[', ']']
  | .array (x :: xs) =>
    '[' :: (layout.newline (depth + 1) ++ (render layout (depth + 1) x ++
      (renderItems layout (depth + 1) xs ++ (layout.newline depth ++ [']']))))
  | .object [] => ['{', '}']
  | .object (m :: ms) =>
    '{' :: (layout.newline (depth + 1) ++ (renderMember layout (depth + 1) m ++
      (renderMembers layout (depth + 1) ms ++ (layout.newline depth ++ ['}']))))

/-- The items after the first one, each with the comma before it. -/
def renderItems (layout : Layout) (depth : Nat) : List Json → List Char
  | [] => []
  | x :: xs =>
    ',' :: (layout.newline depth ++ (render layout depth x ++ renderItems layout depth xs))

def renderMember (layout : Layout) (depth : Nat) : Literal × Json → List Char
  | (k, v) => k.render ++ (layout.colon ++ render layout depth v)

/-- The members after the first one, each with the comma before it. -/
def renderMembers (layout : Layout) (depth : Nat) : List (Literal × Json) → List Char
  | [] => []
  | m :: ms =>
    ',' :: (layout.newline depth ++ (renderMember layout depth m ++ renderMembers layout depth ms))

end

def compact (v : Json) : String := String.ofList (render .compact 0 v)

def pretty (v : Json) : String := String.ofList (render .pretty 0 v)

end ChainConformance.Json
