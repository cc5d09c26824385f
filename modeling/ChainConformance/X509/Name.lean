import ChainConformance.Asn1.Oid
import ChainConformance.Asn1.Reader

/-!
# Names in certificates

A distinguished name is a sequence of sets of attributes. The reader keeps the attributes that it
can read and drops the rest of a name from the first set on that holds none. `Name.render` prints a
name, `Name.short` picks the common name or the organization.
-/

namespace ChainConformance.X509

/-- An attribute: the contents of its type's identifier, and the value with its tag number. -/
structure Attribute where
  oid : Bytes
  tag : Nat
  value : Bytes
  deriving DecidableEq, Repr

/-- Sets of attributes in order. -/
abbrev Name := List (List Attribute)

namespace Name

/-! ## Reading -/

def readAttribute : Bytes → Except Der.Fault (Attribute × Bytes) :=
  Der.inside 16 fun s => do
    let (oid, rest) ← Der.primitive 6 s
    let (value, rest) ← Der.element rest
    return (⟨oid, value.tag, value.contents⟩, rest)

/-- A set of at least one attribute. -/
def readSet : Bytes → Except Der.Fault (List Attribute × Bytes) :=
  Der.inside 17 fun s =>
    match Der.many readAttribute s.length s with
    | ([], _) => .error .malformed
    | r => .ok r

def read : Bytes → Except Der.Fault (Name × Bytes) :=
  Der.inside 16 fun s => .ok (Der.many readSet s.length s)

/-! ## Printing -/

/-- The abbreviations of attribute types. -/
def abbreviations : List (Bytes × String) :=
  [(Oid.commonName, "CN"), (Oid.organization, "O"), (Oid.organizationalUnit, "OU"),
   (Oid.country, "C"), (Oid.state, "ST"), (Oid.locality, "L"), (Oid.title, "title"),
   (Oid.streetAddress, "streetAddress"), (Oid.postalCode, "postalCode"),
   (Oid.givenName, "givenName"), (Oid.surname, "surname"), (Oid.serialNumber, "serialNumber"),
   (Oid.emailAddress, "Email"), (Oid.domainComponent, "DC"), (Oid.userId, "uid")]

def typeName (oid : Bytes) : String :=
  match abbreviations.find? (·.1 = oid) with
  | some a => a.2
  | none => "OID(" ++ Oid.render oid ++ ")"

/-- The 16-bit units of big-endian bytes; a last single byte is a unit of its own. -/
def units16 : Bytes → List Nat
  | [] => []
  | [x] => [x.toNat]
  | x :: y :: rest => (x.toNat * 256 + y.toNat) :: units16 rest

/-- The characters of 16-bit units, if every surrogate has its partner. -/
def ofUnits16? : List Nat → Option (List Char)
  | [] => some []
  | [u] => if 0xD800 ≤ u ∧ u ≤ 0xDFFF then none else some [Char.ofNat u]
  | u :: v :: rest =>
    if 0xD800 ≤ u ∧ u < 0xDC00 then
      if 0xDC00 ≤ v ∧ v ≤ 0xDFFF then
        (ofUnits16? rest).map (Char.ofNat (0x10000 + (u - 0xD800) * 0x400 + (v - 0xDC00)) :: ·)
      else none
    else if 0xDC00 ≤ u ∧ u ≤ 0xDFFF then none
    else (ofUnits16? (v :: rest)).map (Char.ofNat u :: ·)

/-- The tags of the string types whose contents are printed as they are. -/
def textTags : List Nat := [7, 12, 18, 19, 20, 21, 22, 25, 26, 27]

/-- The text of a value; other types than strings are shown in hexadecimal. -/
def valueText? (a : Attribute) : Option String :=
  if textTags.contains a.tag then Bytes.text? a.value
  else if a.tag = 30 then (ofUnits16? (units16 a.value)).map String.ofList
  else some (String.ofList (a.value.flatMap Bytes.upperHex))

def attributeText? (a : Attribute) : Option String :=
  (valueText? a).map fun v => typeName a.oid ++ "=" ++ v

def text? (n : Name) : Option String :=
  (n.mapM fun (set : List Attribute) => (set.mapM attributeText?).map (Text.join " + ")).map
    (Text.join ", ")

/-- The printed name; a value that its type does not allow spoils the whole. -/
def render (n : Name) : String := (text? n).getD "<X509Error: Invalid X.509 name>"

/-- The text of a value of one of the plain string types. -/
def plainText? (a : Attribute) : Option String :=
  if [12, 18, 19, 22].contains a.tag then Bytes.text? a.value else none

/-- The first readable value of an attribute type. -/
def first? (n : Name) (oid : Bytes) : Option String :=
  (n.flatten.filter (·.oid = oid)).findSome? plainText?

/-- The common name, else the organization. -/
def short (n : Name) : String :=
  ((n.first? Oid.commonName).orElse fun _ => n.first? Oid.organization).getD "Unknown"

end Name

end ChainConformance.X509
