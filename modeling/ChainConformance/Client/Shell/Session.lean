import ChainConformance.Client.Shell.Surroundings

/-!
# Sessions

A running script is a state of type `Session`, which a part of a run changes. A part may halt the
script; what it did up to that point stays.
-/

namespace ChainConformance.Shell

structure Session where
  surroundings : Surroundings
  name : String
  arguments : List String
  bindings : List (List Char × String)
  /-- The status of the last command. -/
  status : Nat
  input : Bytes
  output : Bytes
  errors : Bytes
  elapsed : Duration
  /-- Nothing runs any more when this time has elapsed. -/
  limit : Duration

inductive Halt where
  | exit (status : Nat)
  | overdue
  deriving DecidableEq, Repr

/-- A part of a run. What it did up to a halt stays in the session. -/
abbrev Run := ExceptT Halt (StateM Session)

namespace Run

def printError (message : String) : Run Unit :=
  modify fun s => { s with errors := s.errors ++ Bytes.ofString (message ++ "\n") }

/-- Runs a part from a changed session, and changes the session after it, halted or not. -/
def within {α : Type} (before : Session → Session) (after : Session → Session → Session)
    (r : Run α) : Run α :=
  ExceptT.mk fun s => let (result, t) := r.run (before s); (result, after s t)

/-- Runs a part whose exit ends no more than itself and whose parameters are its own. -/
def inside (before : Session → Session) (r : Run Nat) : Run Nat :=
  ExceptT.mk fun s =>
    let (result, t) := r.run (before s)
    let after := { t with
      name := s.name, arguments := s.arguments, bindings := s.bindings, input := s.input }
    match result with
    | .error (.exit n) => (.ok n, after)
    | result => (result, after)

/-- The status and the output of a part, which is not printed. -/
def capture (r : Run Nat) : Run (Nat × Bytes) :=
  ExceptT.mk fun s =>
    let (result, t) := r.run { s with output := [] }
    (result.map fun status => (status, t.output), { t with output := s.output })

end Run

end ChainConformance.Shell
