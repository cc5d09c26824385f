import ChainConformance.Run.Results
import ChainConformance.Suite.Manifest

/-!
# Summaries

`Summary.of?` judges every outcome of a suite against the manifest and sorts the test indices by
verdict. Each list of indices is ascending.
-/

namespace ChainConformance

/-- The tests of a suite by verdict, and the names of the features. -/
structure Summary where
  supported : List String
  unsupported : List String
  passed : List Nat
  warnings : List Nat
  skipped : List Nat
  falsePositives : List Nat
  falseNegatives : List Nat
  deriving DecidableEq, Repr

namespace Summary

/-- The number of outcomes that contradict a hard expectation. -/
def failureCount (s : Summary) : Nat := s.falsePositives.length + s.falseNegatives.length

/-- The name that a manifest gives to a feature. -/
def featureName (m : SuiteManifest) (f : Feature) : Except Error String :=
  match m.features.get? f with
  | some name => .ok name
  | none => .error (.featureNotInManifest f)

/-- The verdicts on the outcomes, with the indices of the tests. -/
def verdicts (m : SuiteManifest) (r : SuiteResults) : List (Verdict × Nat) :=
  (List.zipWith Expectation.judge m.expectations r.outcomes).zipIdx

/-- The indices under one verdict. -/
def indices (verdict : Verdict) (all : List (Verdict × Nat)) : List Nat :=
  (all.filter (·.1 = verdict)).map (·.2)

/-- The summary of the results of a suite, if they cover the manifest. -/
def ofResults (m : SuiteManifest) (r : SuiteResults) : Except Error Summary := do
  if r.outcomes.length ≠ m.expectations.length then
    throw (.coverage r.outcomes.length m.expectations.length)
  let supported ← r.supported.mapM (featureName m)
  let unsupported ← r.unsupported.mapM (featureName m)
  let all := verdicts m r
  return {
    supported, unsupported
    passed := indices .pass all
    warnings := indices .warning all
    skipped := indices .skipped all
    falsePositives := indices .falsePositive all
    falseNegatives := indices .falseNegative all }

def toJson (s : Summary) : Json :=
  .obj [
    ("supportedFeatures", .list .str s.supported),
    ("unsupportedFeatures", .list .str s.unsupported),
    ("passedTests", .list .nat s.passed),
    ("warningTests", .list .nat s.warnings),
    ("skippedTests", .list .nat s.skipped),
    ("falsePositiveTests", .list .nat s.falsePositives),
    ("falseNegativeTests", .list .nat s.falseNegatives)]

end Summary

end ChainConformance
