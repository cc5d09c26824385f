import ChainConformance.Asn1.Time
import ChainConformance.X509.Name

/-!
# Certificates as they are read

`Certificate.read` takes a certificate apart without insisting on more than its structure: bytes
after it are ignored, and so is what follows the known fields inside it. Extensions keep their
contents; `Certificate.extension?` finds one by its identifier if it occurs once.
-/

namespace ChainConformance.X509

/-- An extension with the contents of its identifier. -/
structure Extension where
  oid : Bytes
  critical : Bool
  value : Bytes
  deriving DecidableEq, Repr

/-- The parts of a certificate. Names and public key also come as they were encoded. -/
structure Certificate where
  /-- One less than the number of the version. -/
  version : Nat
  serial : Bytes
  signedWith : Bytes
  issuer : Name
  issuerDer : Bytes
  notBefore : Int
  notAfter : Int
  subject : Name
  subjectDer : Bytes
  publicKey : Bytes
  extensions : List Extension
  signatureAlgorithm : Bytes
  deriving DecidableEq, Repr

namespace Certificate

/-! ## Parts -/

/-- The identifier of an algorithm; its parameters are one element or none. -/
def algorithm : Bytes → Except Der.Fault (Bytes × Bytes) :=
  Der.inside 16 fun s => do
    let (oid, rest) ← Der.primitive 6 s
    if rest.isEmpty then return (oid, rest)
    let (_, rest) ← Der.element rest
    return (oid, rest)

def versionNumber (s : Bytes) : Except Der.Fault (Nat × Bytes) := do
  match ← Der.optional 0 s with
  | (none, rest) => return (0, rest)
  | (some e, rest) =>
    let (contents, _) ← Der.primitive 2 e.contents
    if !Der.isMinimalInteger contents then throw .malformed
    match Der.nat32? contents with
    | some n => return (n, rest)
    | none => throw .malformed

def time (s : Bytes) : Except Der.Fault (Int × Bytes) := do
  let (e, rest) ← Der.element s
  let read := if e.tag = 23 then Time.readUtc? e.contents
    else if e.tag = 24 then Time.readGeneralized? e.contents
    else none
  match read with
  | some t => return (t, rest)
  | none => throw .malformed

def validity : Bytes → Except Der.Fault ((Int × Int) × Bytes) :=
  Der.inside 16 fun s => do
    let (first, rest) ← time s
    let (last, rest) ← time rest
    return ((first, last), rest)

/-- An element with the bytes that it was read from. -/
def withSource {α : Type} (f : Bytes → Except Der.Fault (α × Bytes)) (s : Bytes) :
    Except Der.Fault ((α × Bytes) × Bytes) := do
  let (x, rest) ← f s
  return ((x, s.take (s.length - rest.length)), rest)

def publicKeyInfo : Bytes → Except Der.Fault (Unit × Bytes) :=
  Der.inside 16 fun s => do
    let (_, rest) ← algorithm s
    let (_, rest) ← Der.bitString rest
    return ((), rest)

/-- An identifier of issuer or subject, which is passed over. -/
def uniqueId (number : Nat) (s : Bytes) : Except Der.Fault (Unit × Bytes) := do
  match ← Der.optional number s with
  | (none, rest) => return ((), rest)
  | (some e, rest) =>
    if !e.constructed && Der.isBitString e.contents then return ((), rest) else throw .malformed

/-- A flag, if there is one. Every value but zero is true. -/
def criticalFlag (s : Bytes) : Bool × Bytes :=
  match Der.element s with
  | .ok (e, rest) =>
    match e.tag, e.contents with
    | 1, [x] => (x ≠ 0, rest)
    | _, _ => (false, s)
  | .error _ => (false, s)

def oneExtension : Bytes → Except Der.Fault (Extension × Bytes) :=
  Der.inside 16 fun s => do
    let (oid, rest) ← Der.primitive 6 s
    let (critical, rest) := criticalFlag rest
    let (value, rest) ← Der.primitive 4 rest
    return (⟨oid, critical, value⟩, rest)

def extensionList (s : Bytes) : Except Der.Fault (List Extension) := do
  if s.isEmpty then return []
  let (h, rest) ← Der.header s
  if h.tag ≠ 3 then throw .malformed
  let (e, _) ← Der.withTag 16 rest
  Der.all oneExtension e.contents

/-- The signed part; the algorithm named outside is filled in later. -/
def signedPart : Bytes → Except Der.Fault (Certificate × Bytes) :=
  Der.inside 16 fun s => do
    let (version, rest) ← versionNumber s
    let (serial, rest) ← Der.withTag 2 rest
    let (signedWith, rest) ← algorithm rest
    let ((issuer, issuerDer), rest) ← withSource Name.read rest
    let ((notBefore, notAfter), rest) ← validity rest
    let ((subject, subjectDer), rest) ← withSource Name.read rest
    let ((_, publicKey), rest) ← withSource publicKeyInfo rest
    let (_, rest) ← uniqueId 1 rest
    let (_, rest) ← uniqueId 2 rest
    let extensions ← extensionList rest
    return ({
      version, serial := serial.contents, signedWith, issuer, issuerDer, notBefore, notAfter,
      subject, subjectDer, publicKey, extensions, signatureAlgorithm := [] }, [])

/-- A certificate from the front of a byte string. -/
def parse : Bytes → Except Der.Fault (Certificate × Bytes) :=
  Der.inside 16 fun s => do
    let (c, rest) ← signedPart s
    let (signatureAlgorithm, rest) ← algorithm rest
    let (_, rest) ← Der.bitString rest
    return ({ c with signatureAlgorithm }, rest)

def read? (s : Bytes) : Option Certificate := (parse s).toOption.map (·.1)

/-! ## Extensions -/

/-- The contents of an extension that occurs once. -/
def extension? (c : Certificate) (oid : Bytes) : Option Bytes :=
  match c.extensions.filter (·.oid = oid) with
  | [e] => some e.value
  | _ => none

/-- Whether the basic constraints name a certificate authority. Every flag but zero is true. -/
def isCa (c : Certificate) : Bool :=
  match c.extension? Oid.basicConstraints with
  | none => false
  | some value =>
    match Der.withTag 16 value with
    | .error _ => false
    | .ok (e, _) =>
      match Der.all Der.element e.contents with
      | .error _ => false
      | .ok parts =>
        let flag? (p : Der.Element) : Option Bool :=
          match p.cls, p.tag, p.contents with
          | 0, 1, [x] => some (x ≠ 0)
          | _, _, _ => none
        let number? (p : Der.Element) : Option Nat :=
          if p.cls = 0 ∧ p.tag = 2 then Der.nat32? p.contents else none
        match parts with
        | [p] => (flag? p).getD false
        | [p, q] => (flag? p).getD false && (number? q).isSome
        | _ => false

/-- An entry of the subject alternative names, which may be a DNS name. -/
def generalName? (e : Der.Element) : Option (Option String) :=
  if e.cls ≠ 2 then none
  else match e.tag with
    | 0 => (Der.primitive 6 e.contents).toOption.map fun _ => none
    | 2 => (Bytes.text? e.contents).map some
    | 1 | 6 => (Bytes.text? e.contents).map fun _ => none
    | 4 =>
      match Name.read e.contents with
      | .ok (_, []) => some none
      | _ => none
    | 3 | 5 | 7 | 8 => some none
    | _ => none

/-- The DNS names among the subject alternative names; none if one of the entries is bad. An entry
that ends too early ends the list. -/
def dnsNames (c : Certificate) : List String :=
  match c.extension? Oid.subjectAltName with
  | none => []
  | some value =>
    match Der.withTag 16 value with
    | .error _ => []
    | .ok (e, _) =>
      let (entries, rest) := Der.many Der.element e.contents.length e.contents
      let endsWell := match Der.element rest with
        | .error .malformed => false
        | _ => true
      if endsWell then ((entries.mapM generalName?).getD []).filterMap id else []

/-- Whether the extended key usage allows servers, if there is one. -/
def allowsServers? (c : Certificate) : Option Bool := do
  let value ← c.extension? Oid.extendedKeyUsage
  let (e, _) ← (Der.withTag 16 value).toOption
  let purposes ← (Der.all (Der.primitive 6) e.contents).toOption
  return purposes.contains Oid.serverAuth

end Certificate

end ChainConformance.X509
