import ChainConformance.Bytes
import ChainConformance.Text.Numeral
import ChainConformance.Text.Pieces

/-!
# Network addresses

The written forms of addresses: four decimal numbers with points between them, or eight groups of
hexadecimal digits with colons between them, of which one run of groups may be left out and the last
two may be written in the first form.
-/

namespace ChainConformance.Address

/-- A decimal number below 256 without leading zeros. -/
def isOctet (s : List Char) : Bool :=
  s.length ≤ 3 && (s = ['0'] || s.head? ≠ some '0') &&
    (Text.Numeral.read 256 s).toBool && s.all Text.Numeral.isDigit

def isDotted (s : List Char) : Bool :=
  let parts := Text.splitOn '.' s
  parts.length = 4 && parts.all isOctet

/-- One to four hexadecimal digits. -/
def isGroup (s : List Char) : Bool :=
  1 ≤ s.length && s.length ≤ 4 && s.all fun c => (Bytes.hexValue? c).isSome

/-- How many groups a text with colons between them holds; none if it is malformed. The last two
may be in dotted form where `dotted` allows it. -/
def groups? (dotted : Bool) (s : List Char) : Option Nat :=
  if s = [] then some 0
  else
    let parts := Text.splitOn ':' s
    let last := parts.getLast?.getD []
    if dotted && isDotted last then
      if parts.dropLast.all isGroup then some (parts.length + 1) else none
    else if parts.all isGroup then some parts.length else none

/-- The texts before and after the first pair of colons. -/
def cutAtGap : List Char → Option (List Char × List Char)
  | ':' :: ':' :: rest => some ([], rest)
  | c :: rest => (cutAtGap rest).map fun p => (c :: p.1, p.2)
  | [] => none

/-- Eight groups, or fewer with a gap. -/
def isGrouped (s : List Char) : Bool :=
  match cutAtGap s with
  | none => groups? true s = some 8
  | some (before, after) =>
    match groups? false before, groups? true after with
    | some m, some n => m + n ≤ 7
    | _, _ => false

def isValid (s : String) : Bool := isDotted s.toList || isGrouped s.toList

end ChainConformance.Address
