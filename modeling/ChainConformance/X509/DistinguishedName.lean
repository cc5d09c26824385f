import ChainConformance.Error
import ChainConformance.X509.Name
import ChainConformance.X509.Signed

/-!
# Names that are issued

The name of an issuer or a subject: typed strings in order, at most one of each attribute type.
`push` adds an attribute, or puts it in the place of the one of its type. `ofIssuer` and `ofSubject`
take a name out of a certificate; they differ in the string types that they understand.
-/

namespace ChainConformance

namespace StringKind

def all : List StringKind := [.utf8, .printable, .ia5, .teletex, .bmp, .universal]

/-- The tag number of the type. -/
def tag : StringKind → Nat
  | .utf8 => 12
  | .printable => 19
  | .teletex => 20
  | .ia5 => 22
  | .universal => 28
  | .bmp => 30

def ofTag? (n : Nat) : Option StringKind := all.find? (·.tag = n)

/-- Whether a printable string may hold the character. -/
def isPrintable (c : Char) : Bool := c.isAlphanum || " '()+,-./:=?".toList.contains c

/-- Whether the bytes are characters of the basic plane in two bytes each; its last code is not
one. -/
def isBmp (b : Bytes) : Bool :=
  b.length % 2 = 0 && ((X509.Name.ofUnits16? (X509.Name.units16 b)).any fun text =>
    text.all (·.toNat < 0xFFFF))

/-- Whether the bytes are characters in four bytes each. -/
def isUniversal : Bytes → Bool
  | [] => true
  | a :: b :: c :: d :: rest => (Bytes.toNat [a, b, c, d]).isValidChar && isUniversal rest
  | _ => false

/-- The UTF-8 text of the contents, all of whose characters are allowed. -/
def checkText (kind : StringKind) (allowed : Char → Bool) (contents : Bytes) : Except Error Unit :=
  match Bytes.text? contents with
  | none => .error .unreadableCertificate
  | some text => if text.toList.all allowed then .ok () else .error (.invalidString kind text)

/-- Whether the contents fit the type. -/
def check (kind : StringKind) (contents : Bytes) : Except Error Unit :=
  match kind with
  | .utf8 => checkText kind (fun _ => true) contents
  | .printable => checkText kind isPrintable contents
  | .ia5 => checkText kind (·.toNat < 0x80) contents
  | .teletex => checkText kind (fun c => 0x20 ≤ c.toNat && c.toNat < 0x80) contents
  | .bmp =>
    if isBmp contents then .ok () else .error (.invalidString kind "Invalid UTF-16 encoding")
  | .universal =>
    if isUniversal contents then .ok () else .error (.invalidString kind "Invalid UTF-32 encoding")

end StringKind

namespace X509

/-- An attribute of a name: the contents of its type's identifier, and a string. -/
structure NamePart where
  oid : Bytes
  kind : StringKind
  contents : Bytes
  deriving DecidableEq, Repr

def NamePart.toAttribute (p : NamePart) : NameAttribute :=
  ⟨p.oid, ⟨UInt8.ofNat p.kind.tag, p.contents⟩⟩

/-- The parts with one more, which takes the place of the one of its type if there is one. -/
def pushPart (part : NamePart) : List NamePart → List NamePart
  | [] => [part]
  | other :: rest => if other.oid = part.oid then part :: rest else other :: pushPart part rest

theorem map_oid_pushPart (part : NamePart) (parts : List NamePart) :
    (pushPart part parts).map (·.oid) =
      if part.oid ∈ parts.map (·.oid) then parts.map (·.oid)
        else parts.map (·.oid) ++ [part.oid] := by
  induction parts with
  | nil => simp [pushPart]
  | cons other rest ih =>
    by_cases h : other.oid = part.oid
    · simp [pushPart, h]
    · have h' : ¬ part.oid = other.oid := fun e => h e.symm
      simp only [pushPart, h, ite_false, List.map_cons, ih, List.mem_cons, h', false_or]
      split <;> simp

theorem nodup_pushPart (part : NamePart) {parts : List NamePart}
    (h : (parts.map (·.oid)).Nodup) : ((pushPart part parts).map (·.oid)).Nodup := by
  rw [map_oid_pushPart]
  split
  · exact h
  · next absent =>
    rw [List.nodup_append]
    refine ⟨h, by simp, ?_⟩
    intro a ha b hb
    simp only [List.mem_singleton] at hb
    exact fun e => absent (hb ▸ e ▸ ha)

/-- A name with at most one attribute of each type. -/
structure DistinguishedName where
  parts : List NamePart
  distinct : (parts.map (·.oid)).Nodup
  deriving DecidableEq, Repr

namespace DistinguishedName

def empty : DistinguishedName := ⟨[], by simp⟩

def push (n : DistinguishedName) (part : NamePart) : DistinguishedName :=
  ⟨pushPart part n.parts, nodup_pushPart part n.distinct⟩

/-- The name with a text under an attribute type. -/
def pushText (n : DistinguishedName) (oid : Bytes) (text : String) : DistinguishedName :=
  n.push ⟨oid, .utf8, Bytes.ofString text⟩

/-- Every attribute in a set of its own. -/
def toSets (n : DistinguishedName) : List (List NameAttribute) :=
  n.parts.map fun p => [p.toAttribute]

def encode (n : DistinguishedName) : Bytes := encodeName n.toSets

/-- Whether all attribute types have identifiers of ordinary size. -/
def isOrdinary (n : DistinguishedName) : Bool := n.parts.all fun p => Strict.isOid p.oid

/-! ## Names out of certificates -/

/-- An identifier in its shortest form. A number of more than nine bytes is too large. -/
def normalOid? (oid : Bytes) : Option Bytes :=
  if fits 0 (oid.drop 1) then some (Oid.ofArcs (Oid.arcs oid)) else none
where
  fits (count : Nat) : Bytes → Bool
    | [] => true
    | x :: rest => if x < 128 then count < 9 && fits 0 rest else fits (count + 1) rest

/-- An attribute of a string type that issuers may use. -/
def issuerPart (a : Attribute) : Except Error NamePart := do
  let some oid := normalOid? a.oid | throw .unreadableCertificate
  let some kind := StringKind.ofTag? a.tag | throw .unreadableCertificate
  kind.check a.value
  return ⟨oid, kind, a.value⟩

/-- The name that an issuer puts into certificates, if it has one attribute in each set. -/
def ofIssuer (name : Name) : Except Error DistinguishedName :=
  name.foldlM (fun n set =>
    match set with
    | [a] => n.push <$> issuerPart a
    | _ => .error .unreadableCertificate) .empty

/-- An attribute of a plain string type. -/
def subjectPart (a : Attribute) : Except Error NamePart := do
  let some oid := normalOid? a.oid | throw (.certificate .subjectOid)
  let some text := Name.plainText? a | throw (.certificate .subjectNotText)
  let kind : StringKind := if a.tag = 19 then .printable else if a.tag = 22 then .ia5 else .utf8
  kind.check a.value
  return ⟨oid, kind, Bytes.ofString text⟩

/-- The name that certificates for the same subject get. -/
def ofSubject (name : Name) : Except Error DistinguishedName :=
  name.flatten.foldlM (fun n a => n.push <$> subjectPart a) .empty

/-! ## Names that are made up -/

/-- The organization of every subject. -/
def organization : String := "certsuite.localhost"

/-- The subject with a common name, if one is given, and a serial number of its own. -/
def subject (commonName : Option String) (uuid : String) : DistinguishedName :=
  ((commonName.elim empty (empty.pushText Oid.commonName ·)).pushText
    Oid.organization organization).pushText Oid.serialNumber uuid

end DistinguishedName

end X509

end ChainConformance
