import ChainConformance.NameConstraints.Suite
import ChainConformance.NameConstraints.Synthesis
import ChainConformance.PathBuilding.Suite
import ChainConformance.PathBuilding.Synthesis
import ChainConformance.Suite.Manifest

/-!
# The collection of suites

All suites, bound to the root that their chains end at and to the catalog of trust graphs.
-/

namespace ChainConformance

/-- A scenario of any of the suites. -/
inductive AnyScenario where
  | path (scenario : PathBuilding.Scenario)
  | names (fixture : NameConstraints.Fixture)
  deriving DecidableEq, Repr

/-- The chain of a scenario. Path-building leaves are valid for the host name of their suite. -/
def AnyScenario.chain (root : Root) (d : X509.Draws) : AnyScenario → Except Error X509.Chain
  | .path s => s.chain root d PathBuilding.hostname
  | .names f => f.chain root d

/-- The suites in the order in which they run. -/
structure Collection where
  root : Root
  catalog : Catalog
  suites : List (Suite AnyScenario)

namespace Collection

/-- The version that manifests and exports bear. -/
def version : String := "0.1.0"

def ofRoot (root : Root) : Except Error Collection := do
  let names ← NameConstraints.suite
  let paths ← PathBuilding.suite .standard
  return ⟨root, .standard, [names.map .names, paths.map .path]⟩

def names (c : Collection) : List String := c.suites.map (·.name)

def suite? (c : Collection) (name : String) : Option (Suite AnyScenario) :=
  c.suites.find? (·.name = name)

/-- The suite with a name, which must be there. -/
def suite (c : Collection) (name : String) : Except Error (Suite AnyScenario) :=
  match c.suite? name with
  | some s => .ok s
  | none => .error (.unknownSuite name c.names)

/-- The test at an index of a suite. -/
def test (c : Collection) (name : String) (index : Nat) : Except Error (TestCase AnyScenario) := do
  (← c.suite name).test index

/-- The chain of a test. -/
def chain (c : Collection) (d : X509.Draws) (t : TestCase AnyScenario) : Except Error X509.Chain :=
  t.scenario.chain c.root d

def manifest (c : Collection) : Except Error Manifest := do
  let suites ← c.suites.mapM fun s => return (s.name, ← SuiteManifest.ofSuite s)
  return ⟨version, c.catalog.version, .ofList suites⟩

/-- A one-line description. -/
def describe (c : Collection) : String :=
  "TestSuites \x7b root: " ++ c.root.describe ++ ", catalog_version: " ++
    Text.decimal c.catalog.version.toNat ++ ", providers: [" ++
    Text.join ", " (c.names.map Text.quoted) ++ "] \x7d"

end Collection

end ChainConformance
