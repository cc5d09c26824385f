import ChainConformance.Bytes
import ChainConformance.Text.Pieces

/-!
# Form data

Names and values in the query of a URL: pairs separated by `&`, name and value by the first `=`, a
plus sign for a blank and two hexadecimal digits after a percent sign for a byte.
-/

namespace ChainConformance.FormData

/-- The bytes of a written text. A percent sign without two digits stands for itself. -/
def decodeBytes : Bytes → Bytes
  | [] => []
  | 0x2B :: rest => 0x20 :: decodeBytes rest
  | 0x25 :: a :: b :: rest =>
    match Bytes.hexValue? (Char.ofNat a.toNat), Bytes.hexValue? (Char.ofNat b.toNat) with
    | some high, some low => UInt8.ofNat (16 * high + low) :: decodeBytes rest
    | _, _ => 0x25 :: decodeBytes (a :: b :: rest)
  | x :: rest => x :: decodeBytes rest

/-- The text of a name or a value; bytes that are no text are replaced as a whole. -/
def decode (written : List Char) : String :=
  (Bytes.text? (decodeBytes (Bytes.ofString (String.ofList written)))).getD "\uFFFD"

/-- The pairs of a query, in order; a pair without `=` has the empty value. -/
def read (query : String) : List (String × String) :=
  ((Text.splitOn '&' query.toList).filter (! ·.isEmpty)).map fun pair =>
    match Text.cut '=' pair with
    | some (name, value) => (decode name, decode value)
    | none => (decode pair, "")

/-- The value of a name that is given once. -/
def once? (pairs : List (String × String)) (name : String) : Option String :=
  match pairs.filter (·.1 = name) with
  | [p] => some p.2
  | _ => none

end ChainConformance.FormData
