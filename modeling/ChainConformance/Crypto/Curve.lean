import ChainConformance.Crypto.Modular
import ChainConformance.Encoding.Bits

/-!
# Elliptic curves in Weierstrass form

Points of `y² = x³ + a x + b` over a prime field, with addition and multiplication by a number, and
the two curves that certificates use here.
-/

namespace ChainConformance

/-- A curve with a base point of prime order. -/
structure Curve where
  /-- The size of a coordinate in bytes. -/
  size : Nat
  p : Nat
  a : Nat
  b : Nat
  order : Nat
  baseX : Nat
  baseY : Nat
  deriving DecidableEq, Repr

namespace Curve

inductive Point where
  | infinity
  | affine (x y : Nat)
  deriving DecidableEq, Repr

def base (c : Curve) : Point := .affine c.baseX c.baseY

/-- The third point of the line with the given slope, mirrored. -/
def third (c : Curve) (slope x1 y1 x2 : Nat) : Point :=
  let x := Modular.sub c.p (slope * slope) (x1 + x2)
  .affine x (Modular.sub c.p (slope * Modular.sub c.p x1 x) y1)

def double (c : Curve) : Point → Point
  | .infinity => .infinity
  | .affine x y =>
    if y = 0 then .infinity
    else c.third ((3 * x * x + c.a) * Modular.inverse c.p (2 * y) % c.p) x y x

def add (c : Curve) : Point → Point → Point
  | .infinity, q => q
  | p, .infinity => p
  | .affine x1 y1, .affine x2 y2 =>
    if x1 = x2 then if y1 = y2 then c.double (.affine x1 y1) else .infinity
    else
      let slope := Modular.sub c.p y2 y1 * Modular.inverse c.p (Modular.sub c.p x2 x1) % c.p
      c.third slope x1 y1 x2

/-- The sum of `n` copies of a point, from the highest bit of `n` down. -/
def multiply (c : Curve) (n : Nat) (p : Point) : Point :=
  (Bits.ofNat (8 * c.size) n).foldl
    (fun q bit => if bit then c.add (c.double q) p else c.double q) .infinity

/-- The uncompressed form of a point. -/
def Point.toBytes (c : Curve) : Point → Bytes
  | .infinity => [0]
  | .affine x y => 4 :: (Bytes.ofNat c.size x ++ Bytes.ofNat c.size y)

/-- The curve P-256. -/
def p256 : Curve where
  size := 32
  p := 0xffffffff00000001000000000000000000000000ffffffffffffffffffffffff
  a := 0xffffffff00000001000000000000000000000000fffffffffffffffffffffffc
  b := 0x5ac635d8aa3a93e7b3ebbd55769886bc651d06b0cc53b0f63bce3c3e27d2604b
  order := 0xffffffff00000000ffffffffffffffffbce6faada7179e84f3b9cac2fc632551
  baseX := 0x6b17d1f2e12c4247f8bce6e563a440f277037d812deb33a0f4a13945d898c296
  baseY := 0x4fe342e2fe1a7f9b8ee7eb4a7c0f9e162bce33576b315ececbb6406837bf51f5

/-- The curve P-384. -/
def p384 : Curve where
  size := 48
  p :=
    0xfffffffffffffffffffffffffffffffffffffffffffffffffffffffffffffffeffffffff0000000000000000ffffffff
  a :=
    0xfffffffffffffffffffffffffffffffffffffffffffffffffffffffffffffffeffffffff0000000000000000fffffffc
  b :=
    0xb3312fa7e23ee7e4988e056be3f82d19181d9c6efe8141120314088f5013875ac656398d8a2ed19d2a85c8edd3ec2aef
  order :=
    0xffffffffffffffffffffffffffffffffffffffffffffffffc7634d81f4372ddf581a0db248b0a77aecec196accc52973
  baseX :=
    0xaa87ca22be8b05378eb1c71ef320ad746e1d3b628ba79b9859f741e082542a385502f25dbf55296c3a545e3872760ab7
  baseY :=
    0x3617de4a96262c6f5d9e98bf9292dc29f8f41dbd289a147ce9da3113b5f0b8c00a60b1ce1d7e819d7a431d7c90ea0e5f

end Curve

end ChainConformance
