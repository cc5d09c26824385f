import ChainConformance.Asn1.Algorithm
import ChainConformance.Asn1.Time

/-!
# Certificates in their only form

A strict view of certificates: `Signed.read?` accepts what `Signed.encode` writes, up to attributes
of a set that are out of order and flags that spell out their default, and gives back every field.
-/

namespace ChainConformance.X509

/-- An attribute of a name; the value is any element. -/
structure NameAttribute where
  oid : Bytes
  value : Strict.Element
  deriving DecidableEq, Repr

/-- An extension of a signed part. -/
structure SignedExtension where
  oid : Bytes
  critical : Bool
  value : Bytes
  deriving DecidableEq, Repr

/-- What the signature of a certificate covers. -/
structure SignedPart where
  version : UInt8
  serial : Bytes
  algorithm : Algorithm
  issuer : List (List NameAttribute)
  notBefore : Strict.Element
  notAfter : Strict.Element
  subject : List (List NameAttribute)
  keyAlgorithm : Algorithm
  key : Bytes
  issuerId : Option Bytes
  subjectId : Option Bytes
  extensions : Option (List SignedExtension)
  deriving DecidableEq, Repr

/-- A certificate: what is signed, and the signature as the contents of a bit string. -/
structure Signed where
  part : SignedPart
  algorithm : Algorithm
  signature : Bytes
  deriving DecidableEq, Repr

/-! ## Writing -/

def NameAttribute.encode (a : NameAttribute) : Bytes :=
  Der.sequence [Der.encode 0x06 a.oid, a.value.encode]

def encodeName (name : List (List NameAttribute)) : Bytes :=
  Der.sequence (name.map fun set => Der.set (set.map NameAttribute.encode))

def SignedExtension.encode (e : SignedExtension) : Bytes :=
  Der.sequence [Der.encode 0x06 e.oid, if e.critical then Der.boolean true else [],
    Der.octets e.value]

def SignedPart.encode (p : SignedPart) : Bytes :=
  Der.sequence [
    if p.version = 0 then [] else Der.explicit 0 (Der.encode 0x02 [p.version]),
    Der.encode 0x02 p.serial,
    p.algorithm.encode,
    encodeName p.issuer,
    Der.sequence [p.notBefore.encode, p.notAfter.encode],
    encodeName p.subject,
    Der.sequence [p.keyAlgorithm.encode, Der.encode 0x03 p.key],
    (p.issuerId.map (Der.tagged 1)).getD [],
    (p.subjectId.map (Der.tagged 2)).getD [],
    (p.extensions.map fun es =>
      Der.explicit 3 (Der.sequence (es.map SignedExtension.encode))).getD []]

def Signed.encode (c : Signed) : Bytes :=
  Der.sequence [c.part.encode, c.algorithm.encode, Der.encode 0x03 c.signature]

/-! ## Reading -/

def NameAttribute.read? : Bytes → Option (NameAttribute × Bytes) :=
  Strict.inside? 0x30 fun s => do
    let (oid, rest) ← Strict.oid? s
    let (value, rest) ← Strict.element? rest
    return (⟨oid, value⟩, rest)

/-- The attribute put before the first one that is not smaller, or nothing if it is there. -/
def insertAttribute? (a : NameAttribute) : List NameAttribute → Option (List NameAttribute)
  | [] => some [a]
  | b :: rest =>
    if a = b then none
    else if a.encode < b.encode then some (a :: b :: rest)
    else (insertAttribute? a rest).map (b :: ·)

/-- The attributes of a set in rising order of their encodings, each once. -/
def orderSet? : List NameAttribute → Option (List NameAttribute)
  | [] => some []
  | a :: rest => (orderSet? rest).bind (insertAttribute? a)

def readSet? : Bytes → Option (List NameAttribute × Bytes) :=
  Strict.inside? 0x31 fun s => do
    let (attributes, rest) ← Strict.many? NameAttribute.read? s
    return (← orderSet? attributes, rest)

def readName? : Bytes → Option (List (List NameAttribute) × Bytes) :=
  Strict.inside? 0x30 (Strict.many? readSet?)

/-- Whether the element is a time in its only form, not before 1970. -/
def isStrictTime (e : Strict.Element) : Bool :=
  match e.tag, e.contents.length, e.contents.getLast? with
  | 0x17, 13, some 90 => (Time.readUtc? e.contents).any (0 ≤ ·)
  | 0x18, 15, some 90 => (Time.readGeneralized? e.contents).any (0 ≤ ·)
  | _, _, _ => false

def readTime? (s : Bytes) : Option (Strict.Element × Bytes) := do
  let (e, rest) ← Strict.element? s
  guard (isStrictTime e)
  return (e, rest)

def readValidity? : Bytes → Option ((Strict.Element × Strict.Element) × Bytes) :=
  Strict.inside? 0x30 fun s => do
    let (notBefore, rest) ← readTime? s
    let (notAfter, rest) ← readTime? rest
    return ((notBefore, notAfter), rest)

def readKey? : Bytes → Option ((Algorithm × Bytes) × Bytes) :=
  Strict.inside? 0x30 fun s => do
    let (algorithm, rest) ← Algorithm.read? s
    let (key, rest) ← Strict.bitString? rest
    return ((algorithm, key), rest)

/-- A version under its tag; the first one if there is none. -/
def readVersion? (s : Bytes) : Option (UInt8 × Bytes) := do
  let (e, rest) ← Strict.optional? 0 (s.length + 1) s
  match e with
  | none => return (0, rest)
  | some e =>
    guard (e.tag = 0xA0)
    let (contents, left) ← Strict.integer? e.contents
    guard left.isEmpty
    match contents with
    | [v] =>
      guard (v < 3)
      return (v, rest)
    | _ => none

/-- A serial number of at most 21 octets. -/
def readSerial? (s : Bytes) : Option (Bytes × Bytes) := do
  let (contents, rest) ← Strict.integer? s
  guard (contents.length ≤ 21)
  return (contents, rest)

def readId? (number : Nat) (s : Bytes) : Option (Option Bytes × Bytes) := do
  let (e, rest) ← Strict.optional? number (s.length + 1) s
  match e with
  | none => return (none, rest)
  | some e =>
    guard (e.tag < 0xA0 ∧ Strict.isBitString e.contents)
    return (some e.contents, rest)

def SignedExtension.read? : Bytes → Option (SignedExtension × Bytes) :=
  Strict.inside? 0x30 fun s => do
    let (oid, rest) ← Strict.oid? s
    let (e, afterFirst) ← Strict.element? rest
    let (critical, rest) ← if e.tag = 0x01 then
        if e.contents = [0xFF] then some (true, afterFirst)
        else if e.contents = [0x00] then some (false, afterFirst)
        else none
      else some (false, rest)
    let (value, rest) ← Strict.contents? 0x04 rest
    return (⟨oid, critical, value⟩, rest)

def readExtensions? (s : Bytes) : Option (Option (List SignedExtension) × Bytes) := do
  let (e, rest) ← Strict.optional? 3 (s.length + 1) s
  match e with
  | none => return (none, rest)
  | some e =>
    guard (e.tag = 0xA3)
    let (extensions, left) ←
      Strict.inside? 0x30 (Strict.many? SignedExtension.read?) e.contents
    guard left.isEmpty
    return (some extensions, rest)

def SignedPart.read? : Bytes → Option (SignedPart × Bytes) :=
  Strict.inside? 0x30 fun s => do
    let (version, rest) ← readVersion? s
    let (serial, rest) ← readSerial? rest
    let (algorithm, rest) ← Algorithm.read? rest
    let (issuer, rest) ← readName? rest
    let ((notBefore, notAfter), rest) ← readValidity? rest
    let (subject, rest) ← readName? rest
    let ((keyAlgorithm, key), rest) ← readKey? rest
    let (issuerId, rest) ← readId? 1 rest
    let (subjectId, rest) ← readId? 2 rest
    let (extensions, rest) ← readExtensions? rest
    return ({ version, serial, algorithm, issuer, notBefore, notAfter, subject, keyAlgorithm, key,
              issuerId, subjectId, extensions }, rest)

/-- The certificate that a whole byte string encodes. -/
def Signed.read? : Bytes → Option Signed :=
  Strict.whole? <| Strict.inside? 0x30 fun s => do
    let (part, rest) ← SignedPart.read? s
    let (algorithm, rest) ← Algorithm.read? rest
    let (signature, rest) ← Strict.bitString? rest
    return (⟨part, algorithm, signature⟩, rest)

end ChainConformance.X509
