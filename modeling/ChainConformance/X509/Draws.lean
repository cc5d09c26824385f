import ChainConformance.Crypto.KeyPair

/-!
# Random choices

What the synthesis of a chain leaves to chance, as an argument of the synthesis. Two runs with the
same draws give the same certificates.
-/

namespace ChainConformance.X509

/-- What a synthesis draws at random, each under a number, and the time at which it happens. -/
structure Draws where
  key : Nat → KeyPair
  serial : Nat → Bytes
  uuid : Nat → String
  /-- Seconds from the start of 1970. -/
  now : Int
  /-- How keys sign; signatures may be drawn, too. -/
  sign : KeyPair → Bytes → Bytes := KeyPair.sign

namespace Draws

/-- A serial number that is positive and keeps its length. -/
def serialNumber (d : Draws) (i : Nat) : Bytes := 0x01 :: d.serial i

def notBefore (d : Draws) : Int := d.now - 24 * 3600

/-- The end of thirty years of 365 days. -/
def notAfter (d : Draws) : Int := d.now + 365 * 30 * 86400

/-- An end that has passed. -/
def expired (d : Draws) : Int := d.now - 3600

end Draws

end ChainConformance.X509
