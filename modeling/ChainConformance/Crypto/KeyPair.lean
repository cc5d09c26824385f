import ChainConformance.Asn1.Algorithm
import ChainConformance.Crypto.Ecdsa
import ChainConformance.Crypto.Ed25519
import ChainConformance.Crypto.Rsa

/-!
# Key pairs that can issue certificates

`KeyPair.read?` reads a private key in PKCS #8 form and works out its public key, `KeyPair.sign`
signs with it. Ed25519, P-256, P-384 and RSA keys are accepted; elliptic-curve keys have to state a
public key that fits.
-/

namespace ChainConformance

/-- What a key pair signs with. -/
inductive PrivateKey where
  | ed25519 (seed : Bytes)
  | p256 (number : Nat)
  | p384 (number : Nat)
  | rsa (modulus exponent : Nat)
  deriving DecidableEq, Repr

/-- A private key, its PKCS #8 form, and the algorithm and the bits of its public key. -/
structure KeyPair where
  secret : PrivateKey
  pkcs8 : Bytes
  algorithm : Algorithm
  publicBits : Bytes
  deriving DecidableEq, Repr

namespace KeyPair

/-- The public key as it stands in certificates. -/
def publicKey (k : KeyPair) : Bytes :=
  Der.sequence [k.algorithm.encode, Der.bits k.publicBits]

/-- The algorithm of the signatures that the key makes. -/
def signsWith (k : KeyPair) : Algorithm :=
  match k.secret with
  | .ed25519 _ => .ed25519
  | .p256 _ => .ecdsaWithSha256
  | .p384 _ => .ecdsaWithSha384
  | .rsa .. => .rsaWithSha256

/-! ## The envelope -/

/-- What a private key is wrapped in: version, algorithm, key and an optional public key. -/
structure Envelope where
  version : UInt8
  algorithm : Bytes
  key : Bytes
  publicKey : Option Bytes

/-- Passes over attributes, if there are any. -/
def skipAttributes? (s : Bytes) : Option Bytes :=
  if s.head? = some 0xA0 then (Strict.contents? 0xA0 s).map (·.2) else some s

/-- The bits of a bit string without unused ones. -/
def wholeBits? (contents : Bytes) : Option Bytes :=
  match contents with
  | 0 :: bits => some bits
  | _ => none

/-- A public key, tagged in place of its bit string or around it. -/
def readPublicKey? (s : Bytes) : Option (Bytes × Bytes) := do
  if s.head? = some 0xA1 then
    let (bits, rest) ← Strict.inside? 0xA1 (Strict.contents? 0x03) s
    return (← wholeBits? bits, rest)
  let (bits, rest) ← Strict.contents? 0x81 s
  return (← wholeBits? bits, rest)

def readEnvelope? (s : Bytes) : Option Envelope := do
  let (e, rest) ← Strict.inside? 0x30 (fun s => do
    let (version, rest) ← Strict.contents? 0x02 s
    guard (version = [0] ∨ version = [1])
    let (algorithm, rest) ← Strict.contents? 0x30 rest
    let (key, rest) ← Strict.contents? 0x04 rest
    let rest ← skipAttributes? rest
    if version = [0] then return ((⟨0, algorithm, key, none⟩ : Envelope), rest)
    let (publicKey, rest) ← readPublicKey? rest
    return (⟨1, algorithm, key, some publicKey⟩, rest)) s
  guard rest.isEmpty
  return e

/-! ## Keys by kind -/

def readEd25519? (s : Bytes) (e : Envelope) : Option KeyPair := do
  guard (e.algorithm = Algorithm.ed25519.contents)
  let (seed, rest) ← Strict.contents? 0x04 e.key
  guard (rest.isEmpty ∧ seed.length = 32)
  let key := Ed25519.publicKey seed
  guard (e.publicKey = none ∨ e.publicKey = some key)
  return ⟨.ed25519 seed, s, .ed25519, key⟩

/-- An elliptic-curve key, which states its public key and may state its curve again. -/
def readEc? (kind : Nat → PrivateKey) (curve : Curve) (oid : Bytes) (s : Bytes) (e : Envelope) :
    Option KeyPair := do
  guard (e.version = 0 ∧ e.algorithm = (Algorithm.curve oid).contents)
  let ((octets, stated), rest) ← Strict.inside? 0x30 (fun s => do
    let (version, rest) ← Strict.contents? 0x02 s
    guard (version = [1])
    let (octets, rest) ← Strict.contents? 0x04 rest
    let rest ← if rest.head? = some 0xA0 then do
        let (named, rest) ← Strict.contents? 0xA0 rest
        guard (named = Der.encode 0x06 oid)
        some rest
      else some rest
    let (bits, rest) ← Strict.inside? 0xA1 (Strict.contents? 0x03) rest
    return ((octets, ← wholeBits? bits), rest)) e.key
  guard (rest.isEmpty ∧ octets.length = curve.size)
  let key := Bytes.toNat octets
  guard (0 < key ∧ key < curve.order)
  guard (stated = (curve.multiply key curve.base).toBytes curve)
  return ⟨kind key, s, .curve oid, stated⟩

/-- A number that is not negative, in its shortest form. -/
def readNumber? (s : Bytes) : Option (Nat × Bytes) := do
  let (contents, rest) ← Strict.integer? s
  guard ((contents.headD 0) < 128)
  return (Bytes.toNat contents, rest)

/-- An RSA key of 2048 to 4096 bits whose numbers fit together. -/
def readRsa? (s : Bytes) (e : Envelope) : Option KeyPair := do
  guard (e.version = 0 ∧ e.algorithm = Algorithm.rsa.contents)
  let (numbers, rest) ← Strict.inside? 0x30 (Strict.many? readNumber?) e.key
  guard rest.isEmpty
  match numbers with
  | [version, n, exponent, d, p, q, dp, dq, coefficient] =>
    guard (version = 0)
    let size := Rsa.bitLength n
    guard (2048 ≤ size ∧ size ≤ 4096 ∧ size % 2 = 0 ∧ n % 2 = 1)
    guard (65537 ≤ exponent ∧ exponent < 0x200000000 ∧ exponent % 2 = 1)
    guard (2 * Rsa.bitLength p = size ∧ 2 * Rsa.bitLength q = size ∧ q < p ∧ p * q = n)
    guard (d < n ∧ d % 2 = 1 ∧ size / 2 < Rsa.bitLength d)
    guard (dp < p ∧ dp % 2 = 1 ∧ dq < q ∧ dq % 2 = 1)
    guard (coefficient < p ∧ coefficient * q % p = 1)
    return ⟨.rsa n d, s, .rsa, Der.sequence [Der.nat n, Der.nat exponent]⟩
  | _ => none

/-- The key pair of a private key. -/
def read? (s : Bytes) : Option KeyPair := do
  let e ← readEnvelope? s
  (readEd25519? s e).orElse fun _ =>
    (readEc? .p256 Curve.p256 Oid.p256 s e).orElse fun _ =>
      (readEc? .p384 Curve.p384 Oid.p384 s e).orElse fun _ => readRsa? s e

/-! ## Making keys -/

/-- The PKCS #8 form of a P-256 key. -/
def p256Envelope (key publicKey : Bytes) : Bytes :=
  Der.sequence [Der.encode 0x02 [0], (Algorithm.curve Oid.p256).encode,
    Der.octets (Der.sequence [Der.encode 0x02 [1], Der.octets key,
      Der.explicit 1 (Der.bits publicKey)])]

/-- The P-256 key pair with the given private number. -/
def ofP256 (key : Nat) : KeyPair :=
  let publicKey := (Curve.p256.multiply key Curve.p256.base).toBytes Curve.p256
  ⟨.p256 key, p256Envelope (Bytes.ofNat 32 key) publicKey,
    .curve Oid.p256, publicKey⟩

/-! ## Signatures -/

/-- The signature of a message in the form that certificates hold. -/
def sign (k : KeyPair) (message : Bytes) : Bytes :=
  match k.secret with
  | .ed25519 seed => Ed25519.sign seed message
  | .p256 n => ((Ecdsa.sign .p256 n (Sha256.digest message)).map Ecdsa.encode).getD []
  | .p384 n => ((Ecdsa.sign .p384 n (Sha512.digest384 message)).map Ecdsa.encode).getD []
  | .rsa modulus exponent => Rsa.sign modulus exponent (Sha256.digest message)

/-! ## Identifiers of keys -/

/-- The identifier that certificates give to the public key: the start of its digest. -/
def identifier (k : KeyPair) : Bytes := (Sha256.digest k.publicKey).take 20

end KeyPair

end ChainConformance
