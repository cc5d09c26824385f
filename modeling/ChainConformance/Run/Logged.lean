import ChainConformance.Run.Execution

/-!
# Runs with a log

With a log, a run notes each feature that the client does not support, by the name that the suite
has for it. A suite without that name ends the run with its error; without a log it is not asked.
-/

namespace ChainConformance.Run

variable {σ τ : Type}

/-- The features of a list that the client supports. The names of the others are looked up. -/
def probeFeaturesLogged (suite : Suite σ) (client : Client σ τ) :
    List Feature → RunM τ (List Feature)
  | [] => return []
  | f :: rest => do
    let indices ← (suite.representatives f : Except Error _)
    let holds ← probe suite client indices
    if !holds then
      let _ ← (suite.featureName f : Except Error _)
    let others ← probeFeaturesLogged suite client rest
    return if holds then f :: others else others

/-- Runs a suite whose features are probed in a given way. -/
def suiteProbed (probing : RunM τ (List Feature)) (filter : RunFilter) (suite : Suite σ)
    (client : Client σ τ) : RunM τ SuiteResults := do
  notify (.suiteStarted suite.name suite.count)
  checkSanity suite client
  let supported ← probing
  let outcomes ← runTests filter suite client supported (List.range suite.count)
  notify (.suiteFinished suite.name)
  return {
    outcomes
    supported := suite.features.filter (supported.contains ·)
    unsupported := suite.features.filter (!supported.contains ·) }

theorem suite_eq_suiteProbed (filter : RunFilter) (s : Suite σ) (client : Client σ τ) :
    suite filter s client = suiteProbed (probeFeatures s client s.features) filter s client := rfl

/-- Runs a suite with a log. -/
def suiteLogged (filter : RunFilter) (s : Suite σ) (client : Client σ τ) : RunM τ SuiteResults :=
  suiteProbed (probeFeaturesLogged s client s.features) filter s client

/-- If the suite has names for its features, the log leaves the probes as they are. -/
theorem probeFeaturesLogged_eq {s : Suite σ} (client : Client σ τ) {features : List Feature}
    (named : ∀ f ∈ features, ∃ name, s.featureName f = .ok name) :
    probeFeaturesLogged s client features = probeFeatures s client features := by
  induction features with
  | nil => rfl
  | cons f rest ih =>
    obtain ⟨⟨name, known⟩, others⟩ := List.forall_mem_cons.mp named
    rw [probeFeaturesLogged, probeFeatures, ih others, known]
    refine bind_congr fun indices => bind_congr fun holds => ?_
    cases holds <;> rfl

theorem suiteLogged_eq_suite {s : Suite σ} (filter : RunFilter) (client : Client σ τ)
    (named : ∀ f ∈ s.features, ∃ name, s.featureName f = .ok name) :
    suiteLogged filter s client = suite filter s client := by
  rw [suiteLogged, probeFeaturesLogged_eq client named, suite_eq_suiteProbed]

end ChainConformance.Run
