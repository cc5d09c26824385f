import ChainConformance.PathBuilding.Identifier
import ChainConformance.PathBuilding.Scenario

/-!
# Scenarios as host-name labels

`encode` writes a scenario over a catalog as the base-32 text of its identifier, short enough for a
label of a host name; `decode` reads such a label, in upper or lower case, against the catalog.
-/

namespace ChainConformance.PathBuilding

/-- An index as a number on the wire. -/
def wireIndex (what : String) (index : Nat) : Except Error UInt32 :=
  if index < UInt32.size then .ok (UInt32.ofNat index) else .error (.indexTooLarge what index)

/-- The value, or an error if there is none. -/
def orError {α : Type} (x : Option α) (e : Error) : Except Error α :=
  match x with
  | some a => .ok a
  | none => .error e

/-- The numbers of a scenario in a catalog. -/
def identify (s : Scenario) (c : Catalog) : Except Error Identifier := do
  let name := s.graph.name
  let index ← orError (c.indexOf? name) (.unknownGraph name)
  let graph ← orError (c.get? index) (.unknownGraph name)
  let source ← orError (graph.nodeIndex? s.source) (.foreignNode s.source name)
  let target ← orError (graph.nodeIndex? s.target) (.foreignNode s.target name)
  let broken ← s.broken.mapM fun e => do
    wireIndex "edge" (← orError (graph.edgeIndex? e) (.foreignEdge e name))
  return {
    graph := ← wireIndex "graph" index
    source := ← wireIndex "node" source
    target := ← wireIndex "node" target
    broken := broken
    defect := (s.defect.map Defect.code).getD 0 }

/-- The scenario with these numbers in a catalog. Its hint is read off the graph. -/
def resolve (m : Identifier) (c : Catalog) : Except Error Scenario := do
  let graph ← orError (c.get? m.graph.toNat) (.graphIndex m.graph.toNat)
  let node (n : UInt32) : Except Error String :=
    orError graph.nodes[n.toNat]? (.nodeIndex n.toNat graph.name)
  let source ← node m.source
  let target ← node m.target
  let broken ← m.broken.mapM fun n =>
    orError graph.edges[n.toNat]? (.edgeIndex n.toNat graph.name)
  let defect ← Defect.ofCode m.defect
  return ⟨graph, source, target, broken, defect, (graph.path? broken source target).isNone, ""⟩

/-- The label of a scenario. -/
def encode (s : Scenario) (c : Catalog) : Except Error String := do
  let m ← identify s c
  return String.ofList ((Base32.encode m.toBytes).map fun x => Char.ofNat x.toNat)

/-- The identifier that a label holds. -/
def readLabel (label : String) : Except Error Identifier := do
  let bytes ← (Base32.decode (Bytes.ofString (Text.upper label))).mapError (.base32 label ·)
  (Identifier.ofBytes bytes).mapError fun f => .wire label f.1 f.2

/-- The scenario that a label stands for. -/
def decode (label : String) (c : Catalog) : Except Error Scenario := do
  resolve (← readLabel label) c

end ChainConformance.PathBuilding
