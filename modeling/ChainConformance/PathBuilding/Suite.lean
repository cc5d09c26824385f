import ChainConformance.PathBuilding.Scenario

/-!
# The path-building suite

Test 0 is the sanity test, tests 1 and 2 represent branching, tests 3 to 8 one defect each on the
linear graph. The hand-written scenarios follow; a template among them becomes one test per defect.
-/

namespace ChainConformance.PathBuilding

/-- A hand-written scenario; `broken` lists the broken edges as pairs. -/
def written (graph : TrustGraph) (source target : String) (broken : List (String × String))
    (expectFailure : Bool) (comment : String) : Scenario :=
  ⟨graph, source, target, broken.map fun p => ⟨p.1, p.2⟩, none, expectFailure, comment⟩

/-- The hand-written scenarios, templates included. -/
def explicitScenarios (c : Catalog) : Except Error (List Scenario) := do
  let linear ← c.graph TrustGraph.linear.name
  let twoRoots ← c.graph TrustGraph.twoRoots.name
  let figureSeven ← c.graph TrustGraph.figureSeven.name
  let bridge ← c.graph TrustGraph.bridgeCa.name
  return [
    written linear "Trust Anchor" "EE" [] false "The most basic linear chain.",
    written linear "Trust Anchor" "EE" [("Trust Anchor", "ICA")] true
      "The most basic linear chain, broken by an invalid ICA.",
    written linear "ICA" "EE" [("Trust Anchor", "ICA")] false
      "ICA is trusted directly, so the broken TA => ICA certificate is irrelevant.",
    written twoRoots "Root1" "EE" [] false "Should discover a path to either root.",
    written twoRoots "Root2" "EE" [] false "Should discover a path to either root.",
    written twoRoots "Root1" "EE" [("Root2", "ICA")] false
      "Should discover a path when the alternate root is invalid.",
    written twoRoots "Root2" "EE" [("Root1", "ICA")] false
      "Should discover a path when the alternate root is invalid.",
    written twoRoots "Root1" "EE" [("Root1", "ICA")] true
      "No path exists when the only trusted root is invalid.",
    written twoRoots "Root2" "EE" [("Root2", "ICA")] true
      "No path exists when the only trusted root is invalid.",
    written figureSeven "Trust Anchor" "EE" [] false
      "Should find a path through a more complicated graph.",
    written figureSeven "Trust Anchor" "EE" [("Trust Anchor", "C"), ("A", "B")] false
      "Should find an alternate path through a more complicated graph.",
    written figureSeven "Trust Anchor" "EE" [("Trust Anchor", "A"), ("C", "B")] false
      "Should find an alternate path through a more complicated graph.",
    written bridge "TA Z" "D" [] false "RFC 4158, section 2.3",
    written bridge "TA Z" "EE" [] false "RFC 4158, section 2.4.2",
    written bridge "TA Z" "EE" [("TA X", "Bridge CA")] false
      "Irrelevant invalid cross-signed certificate.",
    written bridge "TA Z" "EE" [("Bridge CA", "TA X")] true
      "Certificate from the bridge CA into infrastructure X is invalid.",
    written bridge "TA Z" "EE" [("TA Z", "Bridge CA")] true
      "Certificate from infrastructure Z to the bridge CA is invalid."]

/-- The tests that a hand-written scenario stands for. -/
def expand (s : Scenario) : List Scenario :=
  if s.isTemplate then Defect.all.map fun d => { s with defect := some d } else [s]

/-- The test of a defect on the linear graph. -/
def representative (linear : TrustGraph) (d : Defect) : Scenario :=
  { written linear "Trust Anchor" "EE" [("Trust Anchor", "ICA")] true "" with defect := some d }

/-- The scenarios of the suite, in order. -/
def scenarios (c : Catalog) : Except Error (List Scenario) := do
  let linear ← c.graph TrustGraph.linear.name
  let twoRoots ← c.graph TrustGraph.twoRoots.name
  let explicit ← explicitScenarios c
  return [.sound linear "Trust Anchor" "EE", .sound twoRoots "Root1" "EE",
    .sound twoRoots "Root2" "EE"] ++ Defect.all.map (representative linear) ++
    explicit.flatMap expand

def suiteName : String := "pathbuilding"

def featureName (f : Feature) : Except Error String :=
  if f = branching then .ok "BRANCHING"
  else match Defect.all.find? (·.feature = f) with
    | some d => .ok ("INVALID_REASON_" ++ d.name)
    | none => .error (.unknownFeature suiteName f)

def representatives (f : Feature) : Except Error (List Nat) :=
  if f = branching then .ok [1, 2]
  else match Defect.all.findIdx? (·.feature = f) with
    | some i => .ok [3 + i]
    | none => .error (.unknownFeature suiteName f)

/-- The suite over a catalog. -/
def suite (c : Catalog) : Except Error (Suite Scenario) := do
  let tests := ((← scenarios c).map Scenario.toTest).toArray
  return {
    name := suiteName
    count := tests.size
    test := Suite.testOf suiteName tests
    sanityIndex := 0
    features := branching :: Defect.all.map Defect.feature
    featureName := featureName
    representatives := representatives }

end ChainConformance.PathBuilding
