/-!
# Cutting and joining text

`Text.splitOn` cuts a text at every occurrence of a character, `Text.cut` at the first one,
`Text.replace` puts a text in the place of every occurrence of another, found from left to right,
and `Text.intercalate` joins texts.
-/

namespace ChainConformance.Text

/-- The pieces between the occurrences of `sep`; at least one, all free of `sep`. -/
def splitOn (sep : Char) : List Char → List (List Char)
  | [] => [[]]
  | c :: rest =>
    if c = sep then [] :: splitOn sep rest
    else match splitOn sep rest with
      | [] => [[c]]
      | piece :: pieces => (c :: piece) :: pieces

/-- The texts before and after the first occurrence of `sep`, or nothing if there is none. -/
def cut (sep : Char) : List Char → Option (List Char × List Char)
  | [] => none
  | c :: rest =>
    if c = sep then some ([], rest) else (cut sep rest).map fun p => (c :: p.1, p.2)

/-- What follows `front` in the text, if the text starts with it. -/
def afterPrefix? : List Char → List Char → Option (List Char)
  | [], s => some s
  | _ :: _, [] => none
  | p :: front, c :: s => if p = c then afterPrefix? front s else none

/-- `replace` with the number of characters that still belong to the last occurrence found. -/
def replaceFrom (what value : List Char) : Nat → List Char → List Char
  | _, [] => []
  | skip + 1, _ :: rest => replaceFrom what value skip rest
  | 0, c :: rest =>
    if what.isPrefixOf (c :: rest) then value ++ replaceFrom what value (what.length - 1) rest
    else c :: replaceFrom what value 0 rest

/-- Every occurrence of the non-empty text `what`, found from left to right and none overlapping
the one before, gives way to `value`. -/
def replace (what value s : List Char) : List Char := replaceFrom what value 0 s

/-- The texts joined by `sep`. -/
def intercalate (sep : List Char) : List (List Char) → List Char
  | [] => []
  | [piece] => piece
  | piece :: pieces => piece ++ sep ++ intercalate sep pieces

/-- The texts joined by `sep`, as strings. -/
def join (sep : String) (pieces : List String) : String :=
  String.ofList (intercalate sep.toList (pieces.map String.toList))

/-- The text with ASCII letters in upper case. -/
def upper (s : String) : String := String.ofList (s.toList.map Char.toUpper)

theorem length_upper (s : String) : (upper s).length = s.length := by
  rw [upper, String.length_ofList, List.length_map, String.length_toList]

/-- The text with ASCII letters in lower case. -/
def lower (s : String) : String := String.ofList (s.toList.map Char.toLower)

/-- Whether the texts differ in the case of ASCII letters only. -/
def sameIgnoringCase (s t : String) : Bool := upper s = upper t

end ChainConformance.Text
