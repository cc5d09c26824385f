import ChainConformance.Encoding.Bits

/-!
# Writing DER

An element is a tag octet, the length of its contents in minimal definite form, and the contents.
-/

namespace ChainConformance.Der

/-- The length in minimal definite form. -/
def length (n : Nat) : Bytes :=
  if n < 128 then [UInt8.ofNat n]
  else UInt8.ofNat (128 + (Bytes.minimal n).length) :: Bytes.minimal n

/-- One element. -/
def encode (tag : UInt8) (contents : Bytes) : Bytes := tag :: (length contents.length ++ contents)

def sequence (parts : List Bytes) : Bytes := encode 0x30 parts.flatten

def set (parts : List Bytes) : Bytes := encode 0x31 parts.flatten

/-- An element of the context class that wraps others. -/
def explicit (number : UInt8) (contents : Bytes) : Bytes := encode (0xA0 + number) contents

/-- An element of the context class with plain contents. -/
def tagged (number : UInt8) (contents : Bytes) : Bytes := encode (0x80 + number) contents

def boolean (b : Bool) : Bytes := encode 0x01 [if b then 0xFF else 0x00]

/-- An integer that is not negative, from its unsigned bytes. -/
def unsigned (b : Bytes) : Bytes :=
  match b.dropWhile (· = 0) with
  | [] => encode 0x02 [0]
  | x :: rest => encode 0x02 (if 128 ≤ x then 0 :: x :: rest else x :: rest)

def nat (n : Nat) : Bytes := unsigned (Bytes.minimal n)

def octets (b : Bytes) : Bytes := encode 0x04 b

/-- A bit string without unused bits. -/
def bits (b : Bytes) : Bytes := encode 0x03 (0 :: b)

/-! ## Object identifiers -/

/-- A number in groups of seven bits, the highest first; all bytes but the last have the high bit
set. -/
def base128 (n : Nat) : Bytes :=
  go (n / 128) [UInt8.ofNat (n % 128)]
where
  go (n : Nat) (after : Bytes) : Bytes :=
    if n = 0 then after else go (n / 128) (UInt8.ofNat (128 + n % 128) :: after)
  termination_by n
  decreasing_by omega

/-- The contents of an object identifier, the first two arcs in one number. -/
def oidContents : List Nat → Bytes
  | a :: b :: rest => base128 (40 * a + b) ++ rest.flatMap base128
  | [a] => base128 (40 * a)
  | [] => []

def oid (arcs : List Nat) : Bytes := encode 0x06 (oidContents arcs)

end ChainConformance.Der
