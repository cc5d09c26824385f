import ChainConformance.X509.Resigning
import ChainConformance.X509.Template

/-!
# Issued certificates

A template issued by an issuer for the key of a subject becomes an `Issued` certificate, which is
fixed up to its signature: `Issued.part` is what is signed, and `Issued.der` the certificate that a
given way of signing makes of it. A chain lists such certificates, leaf first.
-/

namespace ChainConformance.X509

/-- A certificate up to its signature. The private number of `resigned`, if there is one, signs it
once more with SHA-1 in the issuer's stead. -/
structure Issued where
  template : Template
  issuer : Issuer
  subjectKey : KeyPair
  resigned : Option Nat
  deriving DecidableEq, Repr

/-- A certificate issued in the ordinary way. -/
def Template.issue (t : Template) (issuer : Issuer) (subjectKey : KeyPair) : Issued :=
  ⟨t, issuer, subjectKey, none⟩

/-- A certificate by a subject for itself, whose key has its usual identifier. -/
def Template.selfIssue (t : Template) (key : KeyPair) : Issued := t.issue (.ofKey t.subject key) key

namespace Issued

/-- What the issuer signs. -/
def part (c : Issued) : SignedPart where
  version := 2
  serial := c.template.serial
  algorithm := c.issuer.key.signsWith
  issuer := c.issuer.name.toSets
  notBefore := Time.encode c.template.notBefore
  notAfter := Time.encode c.template.notAfter
  subject := c.template.subject.toSets
  keyAlgorithm := c.subjectKey.algorithm
  key := 0 :: c.subjectKey.publicBits
  issuerId := none
  subjectId := none
  extensions := some (c.template.extensions c.issuer c.subjectKey)

/-- The certificate that its issuer signs in the given way. -/
def signed (sign : KeyPair → Bytes → Bytes) (c : Issued) : Signed :=
  let plain : Signed := ⟨c.part, c.issuer.key.signsWith, 0 :: sign c.issuer.key c.part.encode⟩
  match c.resigned with
  | none => plain
  | some number => (plain.resign? number).getD plain

def der (sign : KeyPair → Bytes → Bytes) (c : Issued) : Bytes := (c.signed sign).encode

/-- The certificate to be signed again with SHA-1, which takes one that can be decoded and a P-256
key. -/
def resign (sign : KeyPair → Bytes → Bytes) (c : Issued) : Except Error Issued :=
  match Signed.read? (c.der sign) with
  | none => .error (.certificate .undecodable)
  | some decoded =>
    if decoded.part.withSha1.encode.length < Strict.lengthLimit then
      match c.issuer.key.secret with
      | .p256 number => .ok { c with resigned := some number }
      | _ => .error .resigningKey
    else .error (.certificate .partTooLong)

end Issued

/-! ## Chains -/

/-- A certificate of a chain: one that is issued for it, or one that is given. -/
inductive Link where
  | issued (certificate : Issued)
  | given (der : Bytes)
  deriving DecidableEq, Repr

def Link.der (sign : KeyPair → Bytes → Bytes) : Link → Bytes
  | .issued c => c.der sign
  | .given der => der

/-- What a server presents: certificates, leaf first, and the key of the leaf. -/
structure Chain where
  links : List Link
  key : KeyPair
  deriving DecidableEq, Repr

def Chain.der (sign : KeyPair → Bytes → Bytes) (c : Chain) : List Bytes := c.links.map (·.der sign)

end ChainConformance.X509
