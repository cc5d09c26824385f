import ChainConformance.X509.Draws

/-!
# Draws from a seed

A seed of random bytes gives all draws of a synthesis: each is cut from a digest of the seed with
the kind and the number of the draw.
-/

namespace ChainConformance.X509.Draws

/-- A digest of the seed, the kind of a draw and its number. -/
def block (seed : Bytes) (kind : String) (i : Nat) : Bytes :=
  Sha256.digest (seed ++ Bytes.ofString (kind ++ ":" ++ Text.decimal i))

/-- A number that is a private key of the curve. -/
def scalar (seed : Bytes) (i : Nat) : Nat :=
  1 + Bytes.toNat (block seed "key" i) % (Curve.p256.order - 1)

/-- The bytes of a random identifier of version 4. -/
def versioned (b : Bytes) : Bytes :=
  b.zipIdx.map fun (x, i) =>
    if i = 6 then x % 16 + 0x40 else if i = 8 then x % 64 + 0x80 else x

/-- Sixteen bytes in groups of 4, 2, 2, 2 and 6, as hexadecimal digits. -/
def uuidText (b : Bytes) : String :=
  Text.join "-" [Bytes.hex (b.take 4), Bytes.hex ((b.drop 4).take 2), Bytes.hex ((b.drop 6).take 2),
    Bytes.hex ((b.drop 8).take 2), Bytes.hex (b.drop 10)]

def seeded (seed : Bytes) (now : Int) : Draws where
  key i := .ofP256 (scalar seed i)
  serial i := (block seed "serial" i).take 17
  uuid i := uuidText (versioned ((block seed "uuid" i).take 16))
  now

/-- The seed of the chain of one test. -/
def testSeed (seed : Bytes) (suite : String) (index : Nat) : Bytes := block seed suite index

end ChainConformance.X509.Draws
