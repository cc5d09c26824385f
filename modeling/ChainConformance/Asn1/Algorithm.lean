import ChainConformance.Asn1.Oid
import ChainConformance.Asn1.Strict

/-!
# Algorithms

Keys and signatures in certificates name their algorithm by an object identifier, which parameters
may follow.
-/

namespace ChainConformance

/-- An algorithm: the contents of its identifier, and its parameters. -/
structure Algorithm where
  oid : Bytes
  parameters : Option Strict.Element
  deriving DecidableEq, Repr

namespace Algorithm

/-- The contents of the sequence that names an algorithm. -/
def contents (a : Algorithm) : Bytes :=
  Der.encode 0x06 a.oid ++ (a.parameters.map (·.encode)).getD []

def encode (a : Algorithm) : Bytes := Der.encode 0x30 a.contents

def read? : Bytes → Option (Algorithm × Bytes) :=
  Strict.inside? 0x30 fun s => do
    let (oid, rest) ← Strict.oid? s
    if rest.isEmpty then return (⟨oid, none⟩, rest)
    let (parameters, rest) ← Strict.element? rest
    return (⟨oid, some parameters⟩, rest)

/-! ## Keys -/

/-- Keys on an elliptic curve. -/
def curve (oid : Bytes) : Algorithm := ⟨Oid.ecPublicKey, some ⟨0x06, oid⟩⟩

def rsa : Algorithm := ⟨Oid.rsaEncryption, some ⟨0x05, []⟩⟩

/-- Keys and signatures of Ed25519. -/
def ed25519 : Algorithm := ⟨Oid.ed25519, none⟩

/-! ## Signatures -/

def ecdsaWithSha1 : Algorithm := ⟨Oid.ecdsaWithSha1, none⟩

def ecdsaWithSha256 : Algorithm := ⟨Oid.ecdsaWithSha256, none⟩

def ecdsaWithSha384 : Algorithm := ⟨Oid.ecdsaWithSha384, none⟩

def rsaWithSha256 : Algorithm := ⟨Oid.rsaWithSha256, some ⟨0x05, []⟩⟩

end Algorithm

end ChainConformance
