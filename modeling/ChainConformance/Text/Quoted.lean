import ChainConformance.Text.Unprintable

/-!
# Quoted text

Messages show foreign text between double quotes. `Text.escape` writes one character: quote and
backslash get a backslash, the usual blanks their letter, unprintable characters their number in
braces, and everything else stays as it is.
-/

namespace ChainConformance.Text

/-- The digits of `n` in base sixteen, lower case, most significant first. -/
def hexDigits (n : Nat) : List Char := Nat.toDigits 16 n

/-- The written form of one character between quotes. -/
def escape (c : Char) : List Char :=
  if c = '"' then ['\\', '"']
  else if c = '\\' then ['\\', '\\']
  else if c = '\t' then ['\\', 't']
  else if c = '\r' then ['\\', 'r']
  else if c = '\n' then ['\\', 'n']
  else if c.toNat = 0 then ['\\', '0']
  else if isUnprintable c then ['\\', 'u', '{'] ++ hexDigits c.toNat ++ ['}']
  else [c]

/-- The text between double quotes, every character escaped. -/
def quoted (s : String) : String :=
  String.ofList ('"' :: s.toList.flatMap escape ++ ['"'])

end ChainConformance.Text
