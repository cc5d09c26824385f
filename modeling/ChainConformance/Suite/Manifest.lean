import ChainConformance.Json.Decode
import ChainConformance.Json.Printer
import ChainConformance.Json.Reader
import ChainConformance.SortedMap
import ChainConformance.Suite.Basic

/-!
# Manifests

A manifest lists what a run of the suites is scored against: of each suite the names of its
features, the tests that represent them, and the expectation of every test. It is written as JSON
and read back.
-/

namespace ChainConformance

/-- What one suite is scored against. -/
structure SuiteManifest where
  features : SortedMap UInt32 String
  sanityIndex : UInt64
  /-- The representative tests by the name of the feature. -/
  representatives : SortedMap String (List UInt64)
  expectations : List Expectation
  deriving DecidableEq, Repr

structure Manifest where
  version : String
  catalogVersion : UInt32
  suites : SortedMap String SuiteManifest
  deriving DecidableEq, Repr

namespace SuiteManifest

/-- The maps of feature names and of representatives, each feature put in after those before it. -/
def featureMaps {σ : Type} (s : Suite σ) :
    Except Error (SortedMap UInt32 String × SortedMap String (List UInt64)) :=
  s.features.foldlM (fun maps f => do
    let name ← s.featureName f
    let tests ← s.representatives f
    return (maps.1.insert f name, maps.2.insert name (tests.map UInt64.ofNat)))
    (.empty, .empty)

def ofSuite {σ : Type} (s : Suite σ) : Except Error SuiteManifest := do
  let (features, representatives) ← featureMaps s
  let expectations ← (List.range s.count).mapM fun i => (s.test i).map (·.expected)
  return ⟨features, UInt64.ofNat s.sanityIndex, representatives, expectations⟩

/-! ## JSON -/

def toJson (m : SuiteManifest) : Json :=
  .obj [
    ("features", .obj (m.features.entries.map fun e => (Text.decimal e.1.toNat, .str e.2))),
    ("sanityCheckTestCase", .nat m.sanityIndex.toNat),
    ("featureTestCases",
      .obj (m.representatives.entries.map fun e => (e.1, .list (fun n => .nat n.toNat) e.2))),
    ("expectedResults", .list (fun e => .str (Expectation.name e)) m.expectations)]

def ofJson? (v : Json) : Option SuiteManifest := do
  let [features, sanity, representatives, expectations] ← v.asRecord?
    ["features", "sanityCheckTestCase", "featureTestCases", "expectedResults"] | none
  return {
    features := .ofList (← features.asEntries? Json.Literal.asUInt32? Json.asString?)
    sanityIndex := ← sanity.asUInt64?
    representatives := .ofList (← representatives.asEntries? (·.text) (Json.asList? Json.asUInt64?))
    expectations := ← expectations.asList? (Json.asWord? Expectation.ofName?) }

end SuiteManifest

namespace Manifest

def toJson (m : Manifest) : Json :=
  .obj [
    ("version", .str m.version),
    ("catalogVersion", .nat m.catalogVersion.toNat),
    ("suiteManifests", .obj (m.suites.entries.map fun e => (e.1, e.2.toJson)))]

def ofJson? (v : Json) : Option Manifest := do
  let [version, catalogVersion, suites] ← v.asRecord?
    ["version", "catalogVersion", "suiteManifests"] | none
  return {
    version := ← version.asString?
    catalogVersion := ← catalogVersion.asUInt32?
    suites := .ofList (← suites.asEntries? (·.text) SuiteManifest.ofJson?) }

def render (m : Manifest) : String := m.toJson.pretty

def read (s : String) : Except Error Manifest :=
  match (Json.read s).bind ofJson? with
  | some m => .ok m
  | none => .error .json

end Manifest

end ChainConformance
