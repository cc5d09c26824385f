import ChainConformance.Crypto.Modular
import ChainConformance.Crypto.Sha512

/-!
# Ed25519

The public key of a seed is the base point of the twisted Edwards curve times a number made from
the seed's digest; the other half of the digest goes into the nonces of signatures.
-/

namespace ChainConformance.Ed25519

/-- The prime of the field. -/
def p : Nat := (1 <<< 255) - 19

/-- The coefficient of the curve `y² - x² = 1 + d x² y²`. -/
def d : Nat := 0x52036cee2b6ffe738cc740797779e89800700a4d4141d8ab75eb4dca135978a3

/-- A point in projective coordinates. -/
structure Point where
  x : Nat
  y : Nat
  z : Nat

def base : Point where
  x := 0x216936d3cd6e53fec0a4e231fdd6dc5c692cc7609525a7b2c9562d608f25d51a
  y := 0x6666666666666666666666666666666666666666666666666666666666666658
  z := 1

def add (q r : Point) : Point :=
  let a := q.z * r.z % p
  let b := a * a % p
  let c := q.x * r.x % p
  let e := q.y * r.y % p
  let f := d * (c * e % p) % p
  let g := Modular.sub p b f
  let h := (b + f) % p
  let cross := Modular.sub p ((q.x + q.y) * (r.x + r.y)) (c + e)
  ⟨a * g % p * cross % p, a * h % p * (c + e) % p, g * h % p⟩

/-- The sum of `n` copies of a point, for `n` below 2^256. -/
def multiply (n : Nat) (q : Point) : Point :=
  (Bits.ofNat 256 n).foldl (fun r bit => if bit then add (add r r) q else add r r) ⟨0, 1, 1⟩

/-- The lower half of the digest, little-endian, with its lowest three bits and its highest bit
cleared and the next one set. -/
def scalar (seed : Bytes) : Nat :=
  let n := Bytes.toNat ((Sha512.digest seed).take 32).reverse
  n % (1 <<< 254) / 8 * 8 + (1 <<< 254)

/-- The y coordinate, little-endian, with the parity of x in the highest bit. -/
def encode (q : Point) : Bytes :=
  let inverse := Modular.inverse p q.z
  let x := q.x * inverse % p
  let y := q.y * inverse % p
  (Bytes.ofNat 32 (y + (x % 2) <<< 255)).reverse

/-- The public key of a seed of 32 bytes. -/
def publicKey (seed : Bytes) : Bytes := encode (multiply (scalar seed) base)

/-- The order of the base point. -/
def order : Nat := (1 <<< 252) + 27742317777372353535851937790883648493

/-- A digest as a little-endian number modulo the order. -/
def reduce (message : Bytes) : Nat := Bytes.toNat (Sha512.digest message).reverse % order

/-- The signature of a message. -/
def sign (seed message : Bytes) : Bytes :=
  let nonce := reduce ((Sha512.digest seed).drop 32 ++ message)
  let r := encode (multiply nonce base)
  let s := (nonce + reduce (r ++ publicKey seed ++ message) * scalar seed) % order
  r ++ (Bytes.ofNat 32 s).reverse

end ChainConformance.Ed25519
