import ChainConformance.Asn1.Writer

/-!
# Reading DER strictly

`Strict.element` accepts one encoding of each element only: the length in minimal definite form and
a tag octet of a known type. Sequences are read with a reader for their contents that must leave
nothing over.
-/

namespace ChainConformance.Strict

/-- An element: its tag octet and its contents. -/
structure Element where
  tag : UInt8
  contents : Bytes
  deriving DecidableEq, Repr

def Element.encode (e : Element) : Bytes := Der.encode e.tag e.contents

/-- The tag octets of the universal types that are known. -/
def universalTags : List UInt8 :=
  [0x01, 0x02, 0x03, 0x04, 0x05, 0x06, 0x09, 0x0A, 0x0C, 0x12, 0x13, 0x14, 0x15, 0x16, 0x17, 0x18,
   0x1A, 0x1B, 0x1E, 0x30, 0x31]

/-- Whether the octet is the tag of a known type; the other classes have all low numbers. -/
def isTag (tag : UInt8) : Bool :=
  if tag < 0x40 then universalTags.contains tag else tag.toNat % 32 ≠ 31

/-- One more than the largest length. -/
def lengthLimit : Nat := 0x10000000

/-- The length in front of the contents, in its only form. -/
def length? : Bytes → Option (Nat × Bytes)
  | [] => none
  | x :: rest => do
    if x < 128 then return (x.toNat, rest)
    let count := x.toNat - 128
    guard (1 ≤ count ∧ count ≤ 4 ∧ count ≤ rest.length)
    let n := Bytes.toNat (rest.take count)
    guard (n < lengthLimit ∧ Der.length n = x :: rest.take count)
    return (n, rest.drop count)

/-- One element from the front of a byte string. -/
def element? : Bytes → Option (Element × Bytes)
  | [] => none
  | tag :: rest => do
    guard (isTag tag)
    let (n, rest) ← length? rest
    guard (n ≤ rest.length)
    return (⟨tag, rest.take n⟩, rest.drop n)

/-- The contents of an element with a tag. -/
def contents? (tag : UInt8) (s : Bytes) : Option (Bytes × Bytes) := do
  let (e, rest) ← element? s
  guard (e.tag = tag)
  return (e.contents, rest)

/-- A value read from the whole contents of an element with a tag. -/
def inside? {α : Type} (tag : UInt8) (f : Bytes → Option (α × Bytes)) (s : Bytes) :
    Option (α × Bytes) := do
  let (contents, rest) ← contents? tag s
  let (x, left) ← f contents
  guard left.isEmpty
  return (x, rest)

/-- A value that takes up a whole byte string, which is shorter than the limit for lengths. -/
def whole? {α : Type} (f : Bytes → Option (α × Bytes)) (s : Bytes) : Option α := do
  guard (s.length < lengthLimit)
  let (x, rest) ← f s
  guard rest.isEmpty
  return x

/-- Values read one after the other up to the end; each takes a byte at least. -/
def manyFrom? {α : Type} (f : Bytes → Option (α × Bytes)) : (steps : Nat) → Bytes → Option (List α)
  | _, [] => some []
  | 0, _ :: _ => none
  | steps + 1, x :: s => do
    let (v, rest) ← f (x :: s)
    let vs ← manyFrom? f steps rest
    return v :: vs

def many? {α : Type} (f : Bytes → Option (α × Bytes)) (s : Bytes) : Option (List α × Bytes) :=
  (manyFrom? f s.length s).map (·, [])

/-- The tag octet of the next element, if it is of the context class. -/
def contextTag? : Bytes → Option UInt8
  | tag :: _ => if 0x80 ≤ tag ∧ tag < 0xC0 then some tag else none
  | [] => none

/-- Passes over elements of the context class with lower numbers and reads one with this number, if
there is one. `steps` bounds how many are passed over. -/
def optional? (number : Nat) : (steps : Nat) → Bytes → Option (Option Element × Bytes)
  | 0, s => some (none, s)
  | steps + 1, s =>
    match contextTag? s with
    | none => if (s.head?.map isTag).getD true then some (none, s) else none
    | some tag =>
      if number < tag.toNat % 32 then some (none, s)
      else do
        let (e, rest) ← element? s
        if tag.toNat % 32 = number then return (some e, rest)
        optional? number steps rest

/-- Whether the contents are those of an object identifier: at least three octets and at most 39,
the first below 120, and every later number complete and below 2^32. -/
def isOid (contents : Bytes) : Bool :=
  3 ≤ contents.length && contents.length ≤ 39 && (contents.headD 0) < 120 &&
    arcsFit 0 (contents.drop 1)
where
  arcsFit (count : Nat) : Bytes → Bool
    | [] => count = 0
    | x :: rest =>
      if 4 ≤ count ∧ 16 ≤ x then false
      else if x < 128 then arcsFit 0 rest else arcsFit (count + 1) rest

def oid? (s : Bytes) : Option (Bytes × Bytes) := do
  let (contents, rest) ← contents? 0x06 s
  guard (isOid contents)
  return (contents, rest)

/-- Whether the contents are those of an integer without octets too many. -/
def isInteger : Bytes → Bool
  | [] => false
  | [_] => true
  | x :: y :: _ => !(x = 0 && y < 128) && !(x = 255 && 128 ≤ y)

def integer? (s : Bytes) : Option (Bytes × Bytes) := do
  let (contents, rest) ← contents? 0x02 s
  guard (isInteger contents)
  return (contents, rest)

/-- Whether the contents are those of a bit string: a count below 8, zero if there are no bits. -/
def isBitString : Bytes → Bool
  | [] => false
  | unused :: rest => unused < 8 && (unused = 0 || !rest.isEmpty)

def bitString? (s : Bytes) : Option (Bytes × Bytes) := do
  let (contents, rest) ← contents? 0x03 s
  guard (isBitString contents)
  return (contents, rest)

end ChainConformance.Strict
