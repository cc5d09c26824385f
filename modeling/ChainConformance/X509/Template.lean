import ChainConformance.X509.DistinguishedName
import ChainConformance.X509.Draws

/-!
# Templates of certificates

A template says what a certificate is to contain, issuer and keys apart. `Template.extensions` puts
its parts into extensions, whose order is fixed.
-/

namespace ChainConformance.X509

/-- What the key of a subject may be used for. -/
inductive KeyUsage where
  | digitalSignature
  | certificateSigning
  deriving DecidableEq, Repr

/-- What kinds of programs may use the key of a subject. -/
inductive Purpose where
  | serverAuth
  | emailProtection
  deriving DecidableEq, Repr

/-- Whether a subject is an authority, is said to be none, or is left without a statement. -/
inductive Role where
  | authority
  | endEntity
  | unstated
  deriving DecidableEq, Repr

/-- A set of names: a domain, or the addresses that agree with one under a mask. -/
inductive Subtree where
  | domain (name : String)
  | network (address mask : Bytes)
  deriving DecidableEq, Repr

/-- The names that an authority may vouch for, and those that it may not. -/
structure Constraints where
  permitted : List Subtree
  excluded : List Subtree
  deriving DecidableEq, Repr

/-- What a certificate is to contain, issuer and keys apart. -/
structure Template where
  serial : Bytes
  /-- Seconds from the start of 1970. -/
  notBefore : Int
  notAfter : Int
  subject : DistinguishedName
  /-- DNS names in the subject alternative names. -/
  dnsNames : List String
  keyUsage : KeyUsage
  purposes : List Purpose
  constraints : Option Constraints
  role : Role
  /-- Whether the certificate identifies the key of its issuer. -/
  namesIssuerKey : Bool
  /-- Further extensions. -/
  others : List SignedExtension
  deriving DecidableEq, Repr

/-- Who issues a certificate: a name, an identifier for the key, and the key. -/
structure Issuer where
  name : DistinguishedName
  keyId : Bytes
  key : KeyPair
  deriving DecidableEq, Repr

/-- The issuer whose key has its usual identifier. -/
def Issuer.ofKey (name : DistinguishedName) (key : KeyPair) : Issuer := ⟨name, key.identifier, key⟩

/-- The template of an authority with the `i`-th serial number. -/
def Template.authority (d : Draws) (i : Nat) (subject : DistinguishedName) : Template where
  serial := d.serialNumber i
  notBefore := d.notBefore
  notAfter := d.notAfter
  subject := subject
  dnsNames := []
  keyUsage := .certificateSigning
  purposes := []
  constraints := none
  role := .authority
  namesIssuerKey := false
  others := []

/-! ## Extensions -/

def KeyUsage.bits : KeyUsage → Bytes
  | .digitalSignature => [7, 0x80]
  | .certificateSigning => [2, 0x04]

def Purpose.oid : Purpose → Bytes
  | .serverAuth => Oid.serverAuth
  | .emailProtection => Oid.emailProtection

def Subtree.encode (t : Subtree) : Bytes :=
  Der.sequence [match t with
    | .domain name => Der.tagged 2 (Bytes.ofString name)
    | .network address mask => Der.tagged 7 (address ++ mask)]

def encodeSubtrees (number : UInt8) (trees : List Subtree) : Bytes :=
  if trees.isEmpty then [] else Der.explicit number (trees.flatMap Subtree.encode)

def Constraints.encode (c : Constraints) : Bytes :=
  Der.sequence [encodeSubtrees 0 c.permitted, encodeSubtrees 1 c.excluded]

/-- The identifier of the issuer's key. -/
def Template.issuerKeyExtension (t : Template) (issuer : Issuer) : List SignedExtension :=
  if t.namesIssuerKey then
    [⟨Oid.authorityKeyId, false, Der.sequence [Der.tagged 0 issuer.keyId]⟩] else []

def Template.sanExtension (t : Template) : List SignedExtension :=
  if t.dnsNames.isEmpty then []
  else [⟨Oid.subjectAltName, false,
    Der.sequence (t.dnsNames.map fun n => Der.tagged 2 (Bytes.ofString n))⟩]

def Template.usageExtension (t : Template) : SignedExtension :=
  ⟨Oid.keyUsage, true, Der.encode 0x03 t.keyUsage.bits⟩

def Template.purposeExtension (t : Template) : List SignedExtension :=
  if t.purposes.isEmpty then []
  else [⟨Oid.extendedKeyUsage, false,
    Der.sequence (t.purposes.map fun p => Der.encode 0x06 p.oid)⟩]

def Template.constraintExtension (t : Template) : List SignedExtension :=
  t.constraints.toList.map fun c => ⟨Oid.nameConstraints, true, c.encode⟩

/-- The identifier of the subject's key, and the basic constraints. -/
def Template.roleExtensions (t : Template) (subjectKey : KeyPair) : List SignedExtension :=
  let keyId : SignedExtension := ⟨Oid.subjectKeyId, false, Der.octets subjectKey.identifier⟩
  match t.role with
  | .authority => [keyId, ⟨Oid.basicConstraints, true, Der.sequence [Der.boolean true]⟩]
  | .endEntity => [keyId, ⟨Oid.basicConstraints, true, Der.sequence []⟩]
  | .unstated => []

/-- The extensions of a certificate, in order. -/
def Template.extensions (t : Template) (issuer : Issuer) (subjectKey : KeyPair) :
    List SignedExtension :=
  t.issuerKeyExtension issuer ++ t.sanExtension ++ [t.usageExtension] ++ t.purposeExtension ++
    t.constraintExtension ++ t.roleExtensions subjectKey ++ t.others

end ChainConformance.X509
