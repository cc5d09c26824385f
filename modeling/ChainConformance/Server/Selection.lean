import ChainConformance.Collection
import ChainConformance.PathBuilding.Label

/-!
# Which chain a server presents

A server presents the chain of the test that was selected last, or, in the other mode, the chain
that the first label of the client's server name encodes. The selection is the only state of a
server: `Server.select` changes it if the test exists.
-/

namespace ChainConformance

/-- A test by its suite and its index. -/
structure SelectedTest where
  suite : String
  index : Nat
  deriving DecidableEq, Repr

/-- How a server picks the chain of a handshake. -/
inductive SelectionMode where
  | selectedTest
  | encodedName
  deriving DecidableEq, Repr

structure Server where
  collection : Collection
  mode : SelectionMode
  selected : Option SelectedTest

namespace Server

/-- A server on which no test is selected. -/
def start (collection : Collection) (mode : SelectionMode) : Server := ⟨collection, mode, none⟩

/-- The server with a test selected, if the collection has the test. -/
def select (s : Server) (suite : String) (index : Nat) : Except Error Server := do
  let _ ← s.collection.test suite index
  return { s with selected := some ⟨suite, index⟩ }

/-! ## Handshakes -/

/-- The label that asks for a chain of one certificate under the root. -/
def verifyLabel : String := "verify"

/-- A name up to its first point. -/
def firstLabel (name : String) : String := String.ofList (name.toList.takeWhile (· ≠ '.'))

/-- The scenario of the verify label: a leaf that the root itself vouches for. -/
def verifyScenario (c : Catalog) : Except Error PathBuilding.Scenario := do
  return .sound (← c.graph TrustGraph.linear.name) "Trust Anchor" "ICA"

/-- The scenario that a server name asks for. -/
def encodedScenario (c : Catalog) (name : String) : Except Error PathBuilding.Scenario :=
  if Text.sameIgnoringCase (firstLabel name) verifyLabel then verifyScenario c
  else PathBuilding.decode (firstLabel name) c

/-- The chain for a handshake with the given server name. -/
def chain (s : Server) (d : X509.Draws) (serverName : Option String) : Except Error X509.Chain :=
  match s.mode with
  | .selectedTest =>
    match s.selected with
    | none => .error .noTestSelected
    | some t => do s.collection.chain d (← s.collection.test t.suite t.index)
  | .encodedName =>
    match serverName with
    | none => .error .noServerName
    | some name => do
      (← encodedScenario s.collection.catalog name).chain s.collection.root d name

end Server

end ChainConformance
