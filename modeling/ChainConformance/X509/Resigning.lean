import ChainConformance.Asn1.Oid
import ChainConformance.Crypto.Ecdsa
import ChainConformance.Crypto.Sha1
import ChainConformance.Error
import ChainConformance.X509.Signed

/-!
# Signing a certificate again with SHA-1

`X509.resign` decodes a certificate, names ecdsa-with-SHA1 in both places, and signs the encoding
of the new signed part with a P-256 key. Everything else stays as it was decoded.
-/

namespace ChainConformance.X509

/-! ## Private keys for signing again -/

/-- The private number in an EC private key, whose optional curve and public key must fit. -/
def readEcKey? : Bytes → Option Nat :=
  Strict.whole? <| Strict.inside? 0x30 fun s => do
    let (version, rest) ← Strict.integer? s
    guard (version = [1])
    let (octets, rest) ← Strict.contents? 0x04 rest
    let (curve, rest) ← Strict.optional? 0 (rest.length + 1) rest
    match curve with
    | none => pure ()
    | some e =>
      guard (e.tag = 0xA0)
      let (oid, left) ← Strict.oid? e.contents
      guard (left.isEmpty ∧ oid = Oid.p256)
    guard (24 ≤ octets.length ∧ octets.length ≤ 32)
    let key := Bytes.toNat octets
    guard (0 < key ∧ key < Curve.p256.order)
    let (point, rest) ← Strict.optional? 1 (rest.length + 1) rest
    match point with
    | none => pure ()
    | some e =>
      guard (e.tag = 0xA1)
      let (bits, left) ← Strict.bitString? e.contents
      guard left.isEmpty
      let publicPoint := Curve.p256.multiply key Curve.p256.base
      match publicPoint with
      | .infinity => none
      | .affine x y =>
        guard (bits = 0 :: publicPoint.toBytes Curve.p256 ∨
          bits = 0 :: UInt8.ofNat (2 + y % 2) :: Bytes.ofNat 32 x)
    return (key, rest)

/-- The private number of a P-256 key in PKCS #8 form. -/
def readSigningKey? : Bytes → Option Nat :=
  Strict.whole? <| Strict.inside? 0x30 fun s => do
    let (version, rest) ← Strict.integer? s
    guard (version = [0] ∨ version = [1])
    let (algorithm, rest) ← Algorithm.read? rest
    guard (algorithm = ⟨Oid.ecPublicKey, some ⟨0x06, Oid.p256⟩⟩)
    let (octets, rest) ← Strict.contents? 0x04 rest
    let (publicKey, rest) ← Strict.optional? 1 (rest.length + 1) rest
    guard (publicKey.isSome = (version = [1] : Bool))
    match publicKey with
    | none => pure ()
    | some e => guard (e.tag < 0xA0 ∧ Strict.isBitString e.contents ∧ e.contents.head? = some 0)
    let (others, rest) ← Strict.many? Strict.element? rest
    guard (others.all fun e => 0xA0 ≤ e.tag ∧ e.tag < 0xC0)
    return (← readEcKey? octets, rest)

/-! ## Signing -/

/-- The signed part with SHA-1 named in it. -/
def SignedPart.withSha1 (p : SignedPart) : SignedPart := { p with algorithm := .ecdsaWithSha1 }

/-- The certificate with SHA-1 named in both places and a new signature. -/
def Signed.withSha1 (c : Signed) (signature : Bytes) : Signed :=
  ⟨c.part.withSha1, .ecdsaWithSha1, 0 :: signature⟩

/-- The certificate signed again by a private number of P-256. -/
def Signed.resign? (c : Signed) (key : Nat) : Option Signed :=
  (Ecdsa.sign .p256 key (Sha1.digest c.part.withSha1.encode)).map fun signature =>
    c.withSha1 (Ecdsa.encode signature)

/-- Signs a certificate again with SHA-1 and the given P-256 key. What grows beyond the limit for
lengths cannot be encoded. -/
def resign (certificate key : Bytes) : Except Error Bytes := do
  let c ← (Signed.read? certificate).getDM (throw (.certificate .undecodable))
  unless c.part.withSha1.encode.length < Strict.lengthLimit do
    throw (.certificate .partTooLong)
  let key ← (readSigningKey? key).getDM (throw .resigningKey)
  let resigned ← (c.resign? key).getDM (throw .resigningKey)
  unless resigned.encode.length < Strict.lengthLimit do throw (.certificate .tooLong)
  return resigned.encode

end ChainConformance.X509
