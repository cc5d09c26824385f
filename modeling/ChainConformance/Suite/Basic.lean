import ChainConformance.Error
import ChainConformance.Json.Basic

/-!
# Test suites

A suite is an indexed family of tests: each has a scenario, the host name that the client asks
for, the expectation, and the features that a client needs for the test to mean anything. Some
tests represent a feature; whether the client supports it is read off their outcomes.
-/

namespace ChainConformance

/-- An optional capability of a client. Numbers are scoped to their suite. -/
abbrev Feature := UInt32

/-- One test. -/
structure TestCase (σ : Type) where
  scenario : σ
  expected : Expectation
  hostname : String
  features : List Feature
  definition : Json

/-- A suite of tests. Look-ups fail on what the suite does not have. -/
structure Suite (σ : Type) where
  name : String
  count : Nat
  test : Nat → Except Error (TestCase σ)
  /-- The test that every client is expected to get right. -/
  sanityIndex : Nat
  features : List Feature
  featureName : Feature → Except Error String
  /-- The tests that decide whether a feature is supported. -/
  representatives : Feature → Except Error (List Nat)

namespace TestCase

def map {σ τ : Type} (f : σ → τ) (t : TestCase σ) : TestCase τ :=
  ⟨f t.scenario, t.expected, t.hostname, t.features, t.definition⟩

end TestCase

namespace Suite

def map {σ τ : Type} (f : σ → τ) (s : Suite σ) : Suite τ :=
  { s with test := fun i => (s.test i).map (·.map f) }

/-- The test at an index of an array. -/
def testOf {σ : Type} (suite : String) (tests : Array (TestCase σ)) (index : Nat) :
    Except Error (TestCase σ) :=
  match tests[index]? with
  | some t => .ok t
  | none => .error (.noSuchTest suite index tests.size)

end Suite

end ChainConformance
