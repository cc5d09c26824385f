import ChainConformance.Error

/-!
# Certificates in PEM files

The certificates of a PEM file are the contents of its blocks labelled `CERTIFICATE` or
`TRUSTED CERTIFICATE`.
-/

namespace ChainConformance

/-- The blocks of a PEM file. -/
def pemBlocks (input : Bytes) : Except Error (List Pem.Block) := (Pem.read input).mapError .pem

/-- The certificates of a PEM file, in order; there must be one. -/
def pemChain (input : Bytes) : Except Error (List Bytes) := do
  let blocks ← pemBlocks input
  match blocks.filter fun b => b.label = "CERTIFICATE" || b.label = "TRUSTED CERTIFICATE" with
  | [] => throw .noCertificates
  | certificates => return certificates.map (·.contents)

end ChainConformance
