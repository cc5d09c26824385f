import ChainConformance.Bytes
import ChainConformance.Json.Basic

/-!
# Reading JSON

`Json.read` accepts one value with blanks around it and nothing else. Each reader returns what it
read with the rest of the text; `fuel` bounds the nesting and the number of parts and is set by
`Json.read` to more than any text of that length needs. `Json.text?` is the text of bytes, in which
a string may hold bytes that are no character as long as nobody asks for its text.
-/

namespace ChainConformance.Json

/-- The four characters that may stand between tokens. -/
def isBlank (c : Char) : Bool := c = ' ' || c = '\n' || c = '\t' || c = '\r'

def skipBlanks (s : List Char) : List Char := s.dropWhile isBlank

def isDigit (c : Char) : Bool := '0' ≤ c && c ≤ '9'

/-! ## Numbers -/

/-- The longest run of digits with the rest. -/
def digits (s : List Char) : List Char × List Char := (s.takeWhile isDigit, s.dropWhile isDigit)

/-- The digits of an integer without a sign: `0`, or digits that start with another one. -/
def integerPart? (s : List Char) : Option (List Char × List Char) :=
  match digits s with
  | ([], _) => none
  | (['0'], rest) => some (['0'], rest)
  | ('0' :: _, _) => none
  | (ds, rest) => some (ds, rest)

/-- A fraction with its point, if there is one; a point needs a digit after it. -/
def fraction? : List Char → Option (List Char × List Char)
  | '.' :: rest =>
    match digits rest with
    | ([], _) => none
    | (ds, rest) => some ('.' :: ds, rest)
  | s => some ([], s)

/-- An exponent with its letter, if there is one; the letter needs a digit after it. -/
def exponent? (s : List Char) : Option (List Char × List Char) :=
  match s with
  | c :: rest =>
    if c = 'e' ∨ c = 'E' then
      let (sign, rest) := match rest with
        | '+' :: rest => (['+'], rest)
        | '-' :: rest => (['-'], rest)
        | rest => ([], rest)
      match digits rest with
      | ([], _) => none
      | (ds, rest) => some (c :: sign ++ ds, rest)
    else some ([], s)
  | [] => some ([], [])

/-- A number that starts with a digit, or with a minus sign already read. -/
def number? (negative : Bool) (s : List Char) : Option (Json × List Char) := do
  let (whole, rest) ← integerPart? s
  let (part, rest) ← fraction? rest
  let (power, rest) ← exponent? rest
  let n := Nat.ofDigitChars 10 whole 0
  if part.isEmpty && power.isEmpty && !(negative && n = 0) then
    return (.int (if negative then -n else n), rest)
  let sign := if negative then ['-'] else []
  return (.decimal (String.ofList (sign ++ whole ++ part ++ power)), rest)

/-! ## Strings -/

/-- The number of four hexadecimal digits. -/
def hexUnit? : List Char → Option (Nat × List Char)
  | a :: b :: c :: d :: rest => do
    let value (x : Char) : Option Nat :=
      if '0' ≤ x ∧ x ≤ '9' then some (x.toNat - 48)
      else if 'a' ≤ x ∧ x ≤ 'f' then some (x.toNat - 87)
      else if 'A' ≤ x ∧ x ≤ 'F' then some (x.toNat - 55)
      else none
    return (4096 * (← value a) + 256 * (← value b) + 16 * (← value c) + (← value d), rest)
  | _ => none

/-- What one backslash with the letter after it stands for. -/
def escaped? : Char → Option Char
  | '"' => some '"'
  | '\\' => some '\\'
  | '/' => some '/'
  | 'b' => some (Char.ofNat 8)
  | 'f' => some (Char.ofNat 12)
  | 'n' => some '\n'
  | 'r' => some '\r'
  | 't' => some '\t'
  | _ => none

/-- The parts of a string: a character, or half of a surrogate pair. -/
inductive Unit16 where
  | char (c : Char)
  | surrogate (n : Nat)

/-- A code unit written by number. -/
def Unit16.ofNat (n : Nat) : Unit16 :=
  if 0xD800 ≤ n ∧ n ≤ 0xDFFF then .surrogate n else .char (Char.ofNat n)

/-- Reads up to the closing quote; says whether a backslash was read. -/
def units? : (fuel : Nat) → List Char → Option ((List Unit16 × Bool) × List Char)
  | 0, _ => none
  | _ + 1, [] => none
  | _ + 1, '"' :: rest => some (([], true), rest)
  | fuel + 1, '\\' :: 'u' :: rest => do
    let (n, rest) ← hexUnit? rest
    let ((us, _), rest) ← units? fuel rest
    return ((.ofNat n :: us, false), rest)
  | fuel + 1, '\\' :: c :: rest => do
    let x ← escaped? c
    let ((us, _), rest) ← units? fuel rest
    return ((.char x :: us, false), rest)
  | fuel + 1, c :: rest => do
    guard (isPlain c)
    let ((us, plain), rest) ← units? fuel rest
    return ((.char c :: us, plain), rest)

/-- The characters of the parts, the halves of surrogate pairs joined. -/
def joinUnits : List Unit16 → Option (List Char)
  | [] => some []
  | .char c :: rest => (joinUnits rest).map (c :: ·)
  | .surrogate hi :: .surrogate lo :: rest =>
    if hi < 0xDC00 ∧ 0xDC00 ≤ lo then
      (joinUnits rest).map (Char.ofNat (0x10000 + (hi - 0xD800) * 0x400 + (lo - 0xDC00)) :: ·)
    else none
  | .surrogate _ :: _ => none

/-- A string whose opening quote has been read. -/
def literal? (s : List Char) : Option (Literal × List Char) := do
  let ((us, plain), rest) ← units? (s.length + 1) s
  return (⟨(joinUnits us).map String.ofList, plain⟩, rest)

/-! ## Values -/

mutual

/-- A value, without blanks before it. -/
def value? : (fuel : Nat) → List Char → Option (Json × List Char)
  | 0, _ => none
  | fuel + 1, s =>
    match s with
    | 'n' :: 'u' :: 'l' :: 'l' :: rest => some (.null, rest)
    | 't' :: 'r' :: 'u' :: 'e' :: rest => some (.bool true, rest)
    | 'f' :: 'a' :: 'l' :: 's' :: 'e' :: rest => some (.bool false, rest)
    | '"' :: rest => (literal? rest).map fun r => (.string r.1, r.2)
    | '-' :: rest => number? true rest
    | '[' :: rest =>
      match skipBlanks rest with
      | ']' :: rest => some (.array [], rest)
      | rest => (items? fuel rest).map fun r => (.array r.1, r.2)
    | '{' :: rest =>
      match skipBlanks rest with
      | '}' :: rest => some (.object [], rest)
      | rest => (members? fuel rest).map fun r => (.object r.1, r.2)
    | s => number? false s

/-- Values separated by commas, up to the closing bracket. -/
def items? : (fuel : Nat) → List Char → Option (List Json × List Char)
  | 0, _ => none
  | fuel + 1, s => do
    let (x, rest) ← value? fuel s
    match skipBlanks rest with
    | ']' :: rest => return ([x], rest)
    | ',' :: rest =>
      let (xs, rest) ← items? fuel (skipBlanks rest)
      return (x :: xs, rest)
    | _ => none

/-- Members separated by commas, up to the closing brace. -/
def members? : (fuel : Nat) → List Char → Option (List (Literal × Json) × List Char)
  | 0, _ => none
  | fuel + 1, s =>
    match s with
    | '"' :: rest => do
      let (k, rest) ← literal? rest
      match skipBlanks rest with
      | ':' :: rest =>
        let (v, rest) ← value? fuel (skipBlanks rest)
        match skipBlanks rest with
        | '}' :: rest => return ([(k, v)], rest)
        | ',' :: rest =>
          let (ms, rest) ← members? fuel (skipBlanks rest)
          return ((k, v) :: ms, rest)
        | _ => none
      | _ => none
    | _ => none

end

/-- The value that a whole text denotes. -/
def read (s : String) : Option Json := do
  let (v, rest) ← value? (2 * s.toList.length + 2) (skipBlanks s.toList)
  guard (skipBlanks rest).isEmpty
  return v

/-! ## Bytes -/

/-- Where a character stands: outside of strings, in one, or after a backslash in one. -/
inductive Place where
  | outside
  | inside
  | escaped
  deriving DecidableEq

/-- Where the character after it stands. -/
def Place.after : Place → Char → Place
  | .outside, c => if c = '"' then .inside else .outside
  | .inside, c => if c = '"' then .outside else if c = '\\' then .escaped else .inside
  | .escaped, _ => .inside

/-- Two halves of surrogate pairs. Whatever stands around them, one of them is alone. -/
def stray : List Char := "\\uDC00\\uDC00".toList

/-- The characters of bytes, of which the first `skip` are left out. In a string, a byte that is
part of no character becomes one that leaves the string without a text; elsewhere it is an error. -/
def chars? : Place → (skip : Nat) → Bytes → Option (List Char)
  | _, _, [] => some []
  | place, skip + 1, _ :: rest => chars? place skip rest
  | place, 0, x :: rest =>
    -- a character takes four bytes at most
    match ByteArray.utf8DecodeChar? ⟨((x :: rest).take 4).toArray⟩ 0 with
    | some c => (chars? (place.after c) (c.utf8Size - 1) rest).map (c :: ·)
    | none => if place = .inside then (chars? place 0 rest).map (stray ++ ·) else none

/-- The text as which bytes are read. -/
def text? (b : Bytes) : Option String :=
  (Bytes.text? b).or ((chars? .outside 0 b).map String.ofList)

theorem text?_ofString (s : String) : text? (Bytes.ofString s) = some s := by
  rw [text?, Bytes.text?_ofString, Option.some_or]

end ChainConformance.Json
