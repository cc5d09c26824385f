import ChainConformance.Run.Suites
import ChainConformance.Server.Selection

/-!
# Served runs

The run selects each test on a server before the client is asked; the client connects to the
server on its own.
-/

namespace ChainConformance.Run

variable {τ : Type}

/-- A client that is told a host name and can connect to a server. -/
abbrev ServerClient (τ : Type) := String → Server → τ → Except Error Bool × τ

/-- Selects the test on the server, then asks the client. -/
def served (client : ServerClient τ) (s : Suite AnyScenario) : Client AnyScenario (Server × τ) :=
  fun index t (server, state) =>
    match server.select s.name index with
    | .error e => (.error e, server, state)
    | .ok selected =>
      let (answer, state) := client t.hostname selected state
      (answer, selected, state)

/-- Runs all suites with a client that connects to a server of their collection. -/
def allServed (filter : RunFilter) (c : Collection) (client : ServerClient τ) :
    RunM (Server × τ) (SortedMap String SuiteResults) :=
  all filter c (served client)

end ChainConformance.Run
