import ChainConformance.NameConstraints.San
import ChainConformance.Root

/-!
# Chains for name constraints

The root vouches for a local root, the local root for a constrained intermediate, and that for the
leaf. The chain lists them from the leaf to the root.
-/

namespace ChainConformance.NameConstraints

open X509

/-- The domain of the name that the client asks for, and one that is foreign to it. -/
def validDomain : String := "localhost"
def invalidDomain : String := "example.com"

def mask : Bytes := [255, 255, 255, 0]

/-- The network of the address that the client asks for, and one that is foreign to it. -/
def validNetwork : Subtree := .network [127, 0, 0, 0] mask
def invalidNetwork : Subtree := .network [1, 1, 1, 0] mask

/-- The tree that is permitted. -/
def permittedTree : NameKind → Quality → List Subtree
  | _, .absent => []
  | .dns, .valid => [.domain validDomain]
  | .dns, .invalid => [.domain invalidDomain]
  | .ip, .valid => [validNetwork]
  | .ip, .invalid => [invalidNetwork]

/-- The tree that is excluded; a foreign one is the foreign name alone. -/
def excludedTree : NameKind → Quality → List Subtree
  | .dns, .invalid => [.domain invalidDnsName]
  | kind, quality => permittedTree kind quality

namespace Fixture

/-- The constraints of the intermediate. -/
def constraints (f : Fixture) : Option Constraints :=
  if f.isConstrained then
    some ⟨NameKind.all.flatMap fun k => permittedTree k (f.permitted k),
      NameKind.all.flatMap fun k => excludedTree k (f.excluded k)⟩
  else none

/-- The alternative names of the leaf, if it has any. -/
def sanExtensions (f : Fixture) : Except Error (List SignedExtension) :=
  if f.sanEntries.isEmpty then .ok []
  else (encodeSan f.sanEntries).map fun value => [⟨Oid.subjectAltName, false, value⟩]

/-- The template of the leaf. -/
def leafTemplate (d : Draws) (f : Fixture) : Except Error Template := do
  return { Template.authority d 2 (.subject f.commonNameText? (d.uuid 2)) with
    keyUsage := .digitalSignature
    purposes := [.serverAuth]
    role := .endEntity
    namesIssuerKey := true
    others := ← f.sanExtensions }

/-- The chain of a fixture, root included. -/
def chain (root : Root) (d : Draws) (f : Fixture) : Except Error Chain := do
  let localName := DistinguishedName.subject (some "local_root") (d.uuid 0)
  let localRoot := (Template.authority d 0 localName).issue (← root.issuer) (d.key 0)
  let icaName := DistinguishedName.subject (some "local_ica") (d.uuid 1)
  let icaTemplate :=
    { Template.authority d 1 icaName with constraints := f.constraints, namesIssuerKey := true }
  let ica := icaTemplate.issue (.ofKey localName (d.key 0)) (d.key 1)
  let leaf := (← f.leafTemplate d).issue (.ofKey icaName (d.key 1)) (d.key 2)
  return ⟨[.issued leaf, .issued ica, .issued localRoot, .given root.certificate], d.key 2⟩

end Fixture

end ChainConformance.NameConstraints
