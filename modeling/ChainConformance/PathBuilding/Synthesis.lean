import ChainConformance.PathBuilding.Scenario
import ChainConformance.Root

/-!
# Chains for path building

Every node of a scenario's graph is an entity with a name and a key; the entity of the source is
the root, every other one is made up. Every edge becomes a certificate that its source issues to
its destination, the broken ones with the scenario's defect. The certificates of the target come
first.
-/

namespace ChainConformance.PathBuilding

open X509

/-- Who a node stands for: the name in the certificates issued to it, and the issuer that it is. -/
structure Entity where
  subject : DistinguishedName
  issuer : Issuer
  deriving DecidableEq, Repr

/-- The key that certificates for the entity certify. -/
def Entity.key (e : Entity) : KeyPair := e.issuer.key

/-- An entity that is made up for the `i`-th node. -/
def Entity.fresh (d : Draws) (i : Nat) (node : String) : Entity :=
  let name := DistinguishedName.subject (some node) (d.uuid i)
  ⟨name, .ofKey name (d.key i)⟩

def Entity.ofRoot (root : Root) : Except Error Entity := do
  return ⟨← root.subject, ← root.issuer⟩

/-- Entities under the nodes that they stand for. -/
abbrev Entities := List (String × Entity)

/-- The entity of a node. -/
def Entities.get (entities : Entities) (node : String) : Except Error Entity :=
  match entities.find? (·.1 = node) with
  | some e => .ok e.2
  | none => .error (.unknownEntity node)

/-- The names that a certificate with the name-constraints defect permits. -/
def decoy : Constraints := ⟨[.domain "bad.example.com"], []⟩

/-- The name as an alternative name of a leaf, if it is ASCII. -/
def asciiName (name : String) : Except Error String :=
  if name.toList.all (·.toNat < 0x80) then .ok name else .error (.invalidString .ia5 name)

/-- The template with a defect; SHA-1 does not show in it. -/
def Defect.spoil (defect : Defect) (d : Draws) (t : Template) : Template :=
  match defect with
  | .expired => { t with notAfter := d.expired }
  | .nameConstraints => { t with constraints := some decoy }
  | .badEku => { t with purposes := [.emailProtection] }
  | .missingBasicConstraints => { t with role := .unstated }
  | .notACa => { t with role := .endEntity }
  | .deprecatedCrypto => t

namespace Scenario

/-- The entities of all nodes, in the order of the graph. -/
def entities (root : Root) (d : Draws) (s : Scenario) : Except Error Entities :=
  s.graph.nodes.zipIdx.mapM fun p => do
    return (p.1, ← if p.1 = s.source then Entity.ofRoot root else pure (Entity.fresh d p.2 p.1))

/-- The template of the `j`-th edge as long as nothing is wrong with it. -/
def template (d : Draws) (leafName : String) (s : Scenario) (j : Nat) (edge : Edge)
    (subject : Entity) : Except Error Template := do
  let plain := { Template.authority d j subject.subject with namesIssuerKey := true }
  if edge.destination = s.target then
    return { plain with
      subject := .subject (some s.target) (d.uuid (s.graph.nodes.length + j))
      dnsNames := [← asciiName leafName]
      keyUsage := .digitalSignature
      purposes := [.serverAuth]
      role := .endEntity }
  else return plain

/-- The certificate of the `j`-th edge. -/
def issueEdge (entities : Entities) (d : Draws) (leafName : String) (s : Scenario) (j : Nat)
    (edge : Edge) : Except Error Issued := do
  let issuer ← entities.get edge.source
  let subject ← entities.get edge.destination
  let plain ← s.template d leafName j edge subject
  if s.broken.contains edge then
    match s.defect with
    | none => throw (.brokenWithoutReason edge)
    | some .deprecatedCrypto => (plain.issue issuer.issuer subject.key).resign d.sign
    | some defect => return (defect.spoil d plain).issue issuer.issuer subject.key
  else return plain.issue issuer.issuer subject.key

/-- The chain of a scenario: first the certificates of the target, valid for the leaf's name, then
all others, both in the order of the edges. -/
def chain (root : Root) (d : Draws) (leafName : String) (s : Scenario) : Except Error Chain := do
  let entities ← s.entities root d
  let issued ← s.graph.edges.zipIdx.mapM fun p => do
    return (p.1, ← s.issueEdge entities d leafName p.2 p.1)
  let target ← entities.get s.target
  let (leaves, others) := issued.partition (·.1.destination = s.target)
  return ⟨(leaves ++ others).map fun p => .issued p.2, target.key⟩

end Scenario

end ChainConformance.PathBuilding
