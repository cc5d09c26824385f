/-!
# Byte strings

A byte string is a list of bytes. This module holds its texts: UTF-8 in both directions, lower-case
and colon-separated hexadecimal, and the big-endian number that the bytes denote.
-/

namespace ChainConformance

abbrev Bytes := List UInt8

namespace Bytes

/-- The UTF-8 form of a text. -/
def ofString (s : String) : Bytes := s.toByteArray.data.toList

/-- The text that the bytes are the UTF-8 form of. -/
def text? (b : Bytes) : Option String := String.fromUTF8? ⟨b.toArray⟩

theorem text?_ofString (s : String) : text? (ofString s) = some s := by
  simp [text?, ofString, String.fromUTF8?, s.isValidUTF8, String.fromUTF8]

theorem ofString_of_text? {b : Bytes} {s : String} (h : text? b = some s) : ofString s = b := by
  rw [text?, String.fromUTF8?] at h
  split at h
  · cases h
    rfl
  · cases h

theorem ofString_ofList (cs : List Char) :
    ofString (String.ofList cs) = cs.flatMap String.utf8EncodeChar := by
  rw [ofString, String.toByteArray_ofList, List.utf8Encode]
  simp

/-- A character takes four bytes at most. -/
theorem length_ofString_le (cs : List Char) :
    (ofString (String.ofList cs)).length ≤ 4 * cs.length := by
  rw [ofString_ofList]
  induction cs with
  | nil => exact Nat.le_refl 0
  | cons c cs ih =>
    have one : (String.utf8EncodeChar c).length ≤ 4 := by
      rw [String.length_utf8EncodeChar]
      exact c.utf8Size_le_four
    rw [List.flatMap_cons, List.length_append, List.length_cons]
    omega

/-- The hexadecimal digit of a number below sixteen. -/
def hexDigit (n : Nat) : Char := Nat.digitChar n

/-- Two lower-case hexadecimal digits a byte. -/
def hex (b : Bytes) : String :=
  String.ofList (b.flatMap fun x => [hexDigit (x.toNat / 16), hexDigit (x.toNat % 16)])

def hexValue? (c : Char) : Option Nat :=
  if '0' ≤ c ∧ c ≤ '9' then some (c.toNat - '0'.toNat)
  else if 'a' ≤ c ∧ c ≤ 'f' then some (c.toNat - 'a'.toNat + 10)
  else if 'A' ≤ c ∧ c ≤ 'F' then some (c.toNat - 'A'.toNat + 10)
  else none

/-- The bytes of pairs of hexadecimal digits. -/
def ofHexDigits? : List Char → Option Bytes
  | [] => some []
  | [_] => none
  | hi :: lo :: rest => do
    let high ← hexValue? hi
    let low ← hexValue? lo
    let others ← ofHexDigits? rest
    return UInt8.ofNat (16 * high + low) :: others

def ofHex? (s : String) : Option Bytes := ofHexDigits? s.toList

/-- Two upper-case hexadecimal digits of one byte. -/
def upperHex (x : UInt8) : List Char :=
  [(hexDigit (x.toNat / 16)).toUpper, (hexDigit (x.toNat % 16)).toUpper]

/-- Upper-case hexadecimal, the bytes separated by colons. -/
def hexColon : Bytes → List Char
  | [] => []
  | [x] => upperHex x
  | x :: rest => upperHex x ++ ':' :: hexColon rest

/-- The number with these bytes, most significant first. -/
def toNat (b : Bytes) : Nat := b.foldl (fun n x => 256 * n + x.toNat) 0

/-- The lowest `width` bytes of `n`, most significant first. -/
def ofNat : (width : Nat) → Nat → Bytes
  | 0, _ => []
  | width + 1, n => UInt8.ofNat (n / Nat.pow 256 width) :: ofNat width n

theorem length_ofNat (width n : Nat) : (ofNat width n).length = width := by
  induction width with
  | zero => rfl
  | succ width ih => simp [ofNat, ih]

/-- The bytes of `n` without leading zeros; none for zero. -/
def minimal (n : Nat) : Bytes :=
  if _h : n = 0 then [] else minimal (n / 256) ++ [UInt8.ofNat n]
termination_by n
decreasing_by omega

end Bytes

end ChainConformance
