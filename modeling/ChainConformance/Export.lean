import ChainConformance.Collection
import ChainConformance.Encoding.Base64
import ChainConformance.Run.Execution

/-!
# Exports

An export holds the root and the chains of the selected tests with what a client should do with
them, so that clients can be tested without a server. It is written as JSON, certificates in
base 64.
-/

namespace ChainConformance

/-- One exported test. -/
structure TestExport where
  index : Nat
  chain : X509.Chain
  hostname : String
  /-- The names of the features that a client needs. -/
  features : List String
  /-- Whether the client should accept the chain. -/
  accept : Bool
  /-- Whether a client that does otherwise is only warned about. -/
  failureIsWarning : Bool
  deriving DecidableEq, Repr

structure SuiteExport where
  manifest : SuiteManifest
  tests : List TestExport
  deriving DecidableEq, Repr

structure Export where
  version : String
  root : Bytes
  suites : SortedMap String SuiteExport
  deriving DecidableEq, Repr

namespace Collection

/-- The exported form of a test. -/
def exportTest (c : Collection) (draws : Nat → X509.Draws) (s : Suite AnyScenario) (index : Nat) :
    Except Error TestExport := do
  let t ← s.test index
  let chain ← c.chain (draws index) t
  let features ← t.features.mapM s.featureName
  return ⟨index, chain, t.hostname, features, t.expected.prefersAccept, t.expected.isSoft⟩

/-- The indices of a suite that a set picks. Without a set, and with one without intervals, they are
all of them. -/
def selected {σ : Type} (tests : Option IndexSet) (s : Suite σ) : List Nat :=
  match tests with
  | none => List.range s.count
  | some set => if set.isEmpty then List.range s.count else set.below s.count

def exportSuite (c : Collection) (draws : Nat → X509.Draws) (tests : Option IndexSet)
    (s : Suite AnyScenario) : Except Error SuiteExport := do
  let manifest ← SuiteManifest.ofSuite s
  return ⟨manifest, ← (selected tests s).mapM (c.exportTest draws s)⟩

/-- The export of what a filter leaves, with draws for every test of every suite. -/
def exportAll (c : Collection) (draws : String → Nat → X509.Draws) (filter : RunFilter) :
    Except Error Export := do
  let chosen := c.suites.filter fun s => !filter.suite.any (· ≠ s.name)
  let suites ← chosen.mapM fun s =>
    return (s.name, ← c.exportSuite (draws s.name) filter.tests s)
  return ⟨version, c.root.certificate, .ofList suites⟩

end Collection

/-! ## JSON -/

def base64Json (b : Bytes) : Json := .str (String.ofList (Base64.encode b))

def TestExport.toJson (sign : KeyPair → Bytes → Bytes) (t : TestExport) : Json :=
  .obj [
    ("index", .nat t.index),
    ("certificates", .list base64Json (t.chain.der sign)),
    ("hostname", .str t.hostname),
    ("requiredFeatures", .list .str t.features),
    ("expected", .str (if t.accept then "ACCEPT" else "REJECT")),
    ("failureIsWarning", .bool t.failureIsWarning)]

def SuiteExport.toJson (sign : KeyPair → Bytes → Bytes) (s : SuiteExport) : Json :=
  .obj [
    ("features", .list .str s.manifest.features.values),
    ("sanityCheckTestCase", .nat s.manifest.sanityIndex.toNat),
    ("featureTestCases", .obj (s.manifest.representatives.entries.map fun e =>
      (e.1, .list (fun n => .nat n.toNat) e.2))),
    ("testCases", .list (TestExport.toJson sign) s.tests)]

def Export.toJson (sign : KeyPair → Bytes → Bytes) (e : Export) : Json :=
  .obj [
    ("version", .str e.version),
    ("trustRoot", base64Json e.root),
    ("suites", .obj (e.suites.entries.map fun s => (s.1, s.2.toJson sign)))]

end ChainConformance
