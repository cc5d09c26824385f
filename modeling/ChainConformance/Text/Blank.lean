/-!
# White space

`Text.isBlank` is the Unicode property White_Space; `Text.trim` removes it at both ends of a text
and `Text.trimEnd` at the end only.
-/

namespace ChainConformance.Text

/-- The code points with the property White_Space. -/
def blanks : List Nat :=
  [0x9, 0xA, 0xB, 0xC, 0xD, 0x20, 0x85, 0xA0, 0x1680, 0x2000, 0x2001, 0x2002, 0x2003, 0x2004,
   0x2005, 0x2006, 0x2007, 0x2008, 0x2009, 0x200A, 0x2028, 0x2029, 0x202F, 0x205F, 0x3000]

def isBlank (c : Char) : Bool := blanks.contains c.toNat

/-- The text without the white space at its end. -/
def trimEnd (s : List Char) : List Char := (s.reverse.dropWhile isBlank).reverse

/-- The text without the white space at its ends. -/
def trim (s : List Char) : List Char := trimEnd (s.dropWhile isBlank)

end ChainConformance.Text
