import ChainConformance.Asn1.Oid
import ChainConformance.Crypto.Modular

/-!
# RSA signatures

A SHA-256 digest is wrapped, padded to the size of the modulus, and raised to the private exponent.
-/

namespace ChainConformance.Rsa

/-- The number of bits of a number. -/
def bitLength (n : Nat) : Nat := if n = 0 then 0 else Nat.log2 n + 1

/-- A SHA-256 digest with its algorithm. -/
def wrap (digest : Bytes) : Bytes :=
  Der.sequence [Der.sequence [Der.encode 0x06 Oid.sha256, Der.encode 0x05 []], Der.octets digest]

/-- A message between its padding, `size` bytes long. -/
def pad (size : Nat) (message : Bytes) : Bytes :=
  0 :: 1 :: (List.replicate (size - message.length - 3) 0xFF ++ 0 :: message)

/-- The signature of a SHA-256 digest. -/
def sign (modulus exponent : Nat) (digest : Bytes) : Bytes :=
  let size := (bitLength modulus + 7) / 8
  Bytes.ofNat size (Modular.powBits modulus (Bytes.toNat (pad size (wrap digest)))
    (Bits.ofNat (bitLength exponent) exponent))

end ChainConformance.Rsa
