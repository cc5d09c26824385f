import ChainConformance.Files.Access
import ChainConformance.X509.Bundle
import ChainConformance.X509.Certificate
import ChainConformance.X509.Issued

/-!
# Trust roots

A root is the certificate that every chain ends at, with its private key. It is read from a PEM
bundle and written as one; `Root.load` keeps it in a file. `Root.issuer?` is the root in its part
as an issuer, `Root.subject?` the name that further certificates for it get.
-/

namespace ChainConformance

structure Root where
  certificate : Bytes
  key : KeyPair
  deriving DecidableEq, Repr

namespace Root

/-! ## The root as an issuer -/

/-- The identifier of the issuer's key that a certificate states, in the first extension that has
one. -/
def statedKeyId? (c : X509.Certificate) : Option Bytes :=
  c.extensions.findSome? fun e =>
    if e.oid = Oid.subjectKeyId then ((Der.primitive 4 e.value).toOption).map (·.1) else none

/-- The issuer that a certificate and its key make. The key usage must not be stated twice. -/
def issuerOf (certificate : Bytes) (key : KeyPair) : Except Error X509.Issuer := do
  let some c := X509.Certificate.read? certificate | throw .unreadableCertificate
  if 2 ≤ (c.extensions.filter (·.oid = Oid.keyUsage)).length then throw .unreadableCertificate
  return ⟨← X509.DistinguishedName.ofIssuer c.subject, (statedKeyId? c).getD key.identifier, key⟩

def issuer (r : Root) : Except Error X509.Issuer := issuerOf r.certificate r.key

/-- The name of the root in certificates that are issued to it. -/
def subject (r : Root) : Except Error X509.DistinguishedName := do
  let some c := X509.Certificate.read? r.certificate | throw (.certificate .unreadableRoot)
  X509.DistinguishedName.ofSubject c.subject

/-! ## Bundles -/

/-- The contents of the first block with a label. -/
def firstBlock? (label : String) (blocks : List Pem.Block) : Option Bytes :=
  (blocks.find? (·.label = label)).map (·.contents)

/-- The root in a PEM bundle: its first certificate and its first private key, which have to be
usable for issuing. -/
def ofPem (input : Bytes) : Except Error Root := do
  let blocks ← pemBlocks input
  let some certificate := firstBlock? "CERTIFICATE" blocks | throw (.bundle .noCertificate)
  let some pkcs8 := firstBlock? "PRIVATE KEY" blocks | throw (.bundle .noPrivateKey)
  let some key := KeyPair.read? pkcs8 | throw .unreadableKey
  let _ ← issuerOf certificate key
  return ⟨certificate, key⟩

/-- The certificate alone. -/
def certificatePem (r : Root) : String := Pem.render "CERTIFICATE" r.certificate

/-- Certificate and private key. -/
def pem (r : Root) : String := r.certificatePem ++ Pem.render "PRIVATE KEY" r.key.pkcs8

/-- A description that does not show the key. -/
def describe (r : Root) : String :=
  "RootAuthority \x7b cert_der_len: " ++ Text.decimal r.certificate.length ++ ", .. \x7d"

/-! ## New roots -/

def commonName : String := "certsuite_trust_root"

/-- A root that signs its own certificate. -/
def generate (sign : KeyPair → Bytes → Bytes) (d : X509.Draws) : Root :=
  let name := X509.DistinguishedName.subject (some commonName) (d.uuid 0)
  ⟨((X509.Template.authority d 0 name).selfIssue (d.key 0)).der sign, d.key 0⟩

/-- The root in a file. A missing file is made, with the directories above it, and gets a new
root; a file that is there is only read. -/
def load {m : Type → Type} [Monad m] (files : FileAccess m) (fresh : Root) (path : String) :
    ExceptT Error m Root := do
  if ← files.exists? path then
    match ← files.read path with
    | .ok contents => ofPem contents
    | .error fault => throw (.file fault)
  else
    match ← files.makeDirectories ((FilePath.parent? path).getD "") with
    | .error fault => throw (.file fault)
    | .ok () =>
      match ← files.write path (Bytes.ofString fresh.pem) with
      | .error fault => throw (.file fault)
      | .ok () => return fresh

end Root

end ChainConformance
