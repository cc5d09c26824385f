import ChainConformance.Collection
import ChainConformance.Run.Execution

/-!
# Runs of all suites

A run goes through the suites that the filter admits, in order, up to the first error. A local run
hands the client the chain of each test; a served run selects each test on a server first, and the
client connects to the server.
-/

namespace ChainConformance.Run

variable {τ : Type}

/-- Runs suites in order. -/
def suites (filter : RunFilter) (client : Suite AnyScenario → Client AnyScenario τ) :
    List (Suite AnyScenario) → RunM τ (List (String × SuiteResults))
  | [] => return []
  | s :: rest => do
    if filter.includesSuite s.name then
      let results ← Run.suite filter s (client s)
      let others ← suites filter client rest
      return (s.name, results) :: others
    else suites filter client rest

/-- Runs all suites of a collection. -/
def all (filter : RunFilter) (c : Collection) (client : Suite AnyScenario → Client AnyScenario τ) :
    RunM τ (SortedMap String SuiteResults) := do
  return .ofList (← suites filter client c.suites)

/-! ## Local runs -/

/-- A client that is shown host names and chains. -/
abbrev ChainClient (τ : Type) := String → X509.Chain → τ → Except Error Bool × τ

/-- Shows the client the chain of every test that it is asked about. The draws of a chain go with
the suite and the test. -/
def shown (c : Collection) (draws : String → Nat → X509.Draws) (client : ChainClient τ)
    (s : Suite AnyScenario) : Client AnyScenario τ := fun index t state =>
  match c.chain (draws s.name index) t with
  | .error e => (.error e, state)
  | .ok chain => client t.hostname chain state

/-- Runs all suites with a client that is shown their chains. -/
def allLocal (filter : RunFilter) (c : Collection) (draws : String → Nat → X509.Draws)
    (client : ChainClient τ) : RunM τ (SortedMap String SuiteResults) :=
  all filter c (shown c draws client)

end ChainConformance.Run
