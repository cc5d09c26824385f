import ChainConformance.Asn1.Writer
import ChainConformance.Crypto.Curve
import ChainConformance.Crypto.Sha256
import ChainConformance.Crypto.Sha512

/-!
# Deterministic ECDSA

The nonce of a signature is derived from the private key and the digest with HMAC, as RFC 6979
describes, so a key signs a digest in one way only.
-/

namespace ChainConformance.Ecdsa

/-- A curve with the hash function that goes with it. -/
structure Scheme where
  curve : Curve
  hash : Bytes → Bytes
  /-- The size of a block of the hash function. -/
  block : Nat

def Scheme.p256 : Scheme := ⟨Curve.p256, Sha256.digest, 64⟩

def Scheme.p384 : Scheme := ⟨Curve.p384, Sha512.digest384, 128⟩

/-! ## Nonces -/

/-- The keyed digest of a message. Keys here are never longer than a block. -/
def Scheme.hmac (s : Scheme) (key message : Bytes) : Bytes :=
  let padded := key ++ List.replicate (s.block - key.length) 0
  s.hash (padded.map (· ^^^ 0x5c) ++ s.hash (padded.map (· ^^^ 0x36) ++ message))

/-- The state from which nonces are drawn: a key and a value. -/
structure Drbg where
  key : Bytes
  value : Bytes

def Drbg.update (s : Scheme) (d : Drbg) (data : Bytes) : Drbg :=
  let key := s.hmac d.key (d.value ++ data)
  ⟨key, s.hmac key d.value⟩

/-- The state for a private key and a reduced digest, both as long as a coordinate. -/
def Drbg.seed (s : Scheme) (key digest : Bytes) : Drbg :=
  let d : Drbg := ⟨List.replicate s.curve.size 0, List.replicate s.curve.size 1⟩
  (d.update s (0 :: (key ++ digest))).update s (1 :: (key ++ digest))

/-- Draws numbers until one has a signature; `tries` bounds the attempts. -/
def firstSignature (s : Scheme) (signWith : Nat → Option (Nat × Nat)) :
    (tries : Nat) → Drbg → Option (Nat × Nat)
  | 0, _ => none
  | tries + 1, d =>
    let value := s.hmac d.key d.value
    match signWith (Bytes.toNat value) with
    | some signature => some signature
    | none => firstSignature s signWith tries ((⟨d.key, value⟩ : Drbg).update s [0])

/-! ## Signatures -/

/-- The signature of a number with a private key and a nonce, if the nonce is usable. -/
def signWith (c : Curve) (key z nonce : Nat) : Option (Nat × Nat) :=
  if nonce = 0 ∨ c.order ≤ nonce then none
  else match c.multiply nonce c.base with
    | .infinity => none
    | .affine x _ =>
      let r := x % c.order
      let s := Modular.inverse c.order nonce * ((z + r * key) % c.order) % c.order
      if r = 0 ∨ s = 0 then none else some (r, s)

/-- The signature of a digest that is no longer than a coordinate. -/
def sign (s : Scheme) (key : Nat) (digest : Bytes) : Option (Nat × Nat) :=
  let z := Bytes.toNat digest % s.curve.order
  firstSignature s (signWith s.curve key z) 64
    (.seed s (Bytes.ofNat s.curve.size key) (Bytes.ofNat s.curve.size z))

/-- The DER form of a signature. -/
def encode (signature : Nat × Nat) : Bytes :=
  Der.sequence [Der.nat signature.1, Der.nat signature.2]

end ChainConformance.Ecdsa
