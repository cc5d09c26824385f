import ChainConformance.Client.Shell.Command
import ChainConformance.Client.Shell.Redirection

/-!
# Running scripts

`evaluate` runs a script in a session. `start` runs a program by its name, as a client is started.
-/

namespace ChainConformance.Shell

/-- Both parts of a pipe run at once, each on its own. -/
def runPipe (first second : Run Nat) : Run Nat := do
  let start := (← get).elapsed
  let (_, passed) ← Run.capture (Run.inside id first)
  let firstEnd := (← get).elapsed
  modify fun s => { s with elapsed := start }
  let status ← Run.inside (fun s => { s with input := passed }) second
  modify fun s => { s with elapsed := ⟨max firstEnd.nanoseconds s.elapsed.nanoseconds⟩ }
  return status

/-- Repeats a part as long as another has the wanted success; after `rounds` rounds, no time is
left. -/
def runLoop (wanted : Bool) (condition body : Run Nat) (status : Nat) : (rounds : Nat) → Run Nat
  | 0 => throw .overdue
  | rounds + 1 => do
    if ((← condition) = 0) = wanted then runLoop wanted condition body (← body) rounds
    else return status

def runEach (runScript : Script → Run Nat) (name : List Char) (words : List Word) (body : Run Nat) :
    Run Nat := do
  (← words.mapM (expandWord runScript)).flatten.foldlM (fun _ field => do
    modify fun s => { s with bindings := (name, field) :: s.bindings }
    body) 0

def maximalRounds : Nat := 10000

/-- Keeps the status of a part for the commands after it. -/
def noted (r : Run Nat) : Run Nat := do
  let status ← r
  modify fun s => { s with status }
  return status

/-- The status of a script. One that nests deeper than `depth` does not end in time. -/
def evaluate : (depth : Nat) → Script → Run Nat
  | 0, _ => throw .overdue
  | depth + 1, script =>
    let runScript := evaluate depth
    noted <| match script with
    | .simple words => runSimple runScript words
    | .redirected s redirections => runRedirected runScript (runScript s) redirections
    | .negated s => return if (← runScript s) = 0 then 1 else 0
    | .piped s t => runPipe (runScript s) (runScript t)
    | .both s t => do
      let status ← runScript s
      if status = 0 then runScript t else return status
    | .either s t => do
      let status ← runScript s
      if status = 0 then return 0 else runScript t
    | .sequence s t => do
      let _ ← runScript s
      runScript t
    | .branch condition yes no => do
      if (← runScript condition) = 0 then runScript yes else runScript no
    | .loop wanted condition body =>
      runLoop wanted (runScript condition) (runScript body) 0 maximalRounds
    | .each name words body => runEach runScript name words (runScript body)
    | .group s => Run.inside id (runScript s)

def maximalDepth : Nat := 1000

/-- What became of a program: its status if it ended in time, what it printed, and the files that it
left. -/
structure Conduct where
  status : Option Nat
  output : Bytes
  errors : Bytes
  tree : FileTree

def isProgram (name : String) : Bool :=
  shells.contains name || name = "kill" || (utilities.lookup name).isSome

/-- Starts a program with no input, for at most the given time. -/
def start (surroundings : Surroundings) (limit : Duration) (program : String)
    (arguments : List String) : Except FileFault Conduct :=
  if ((programName? program).map isProgram).getD false then
    let session : Session :=
      { surroundings, name := program, arguments, bindings := [], status := 0, input := []
        output := [], errors := [], elapsed := ⟨0⟩, limit }
    let (result, after) := (runProgram (evaluate maximalDepth) program arguments).run session
    let status := match result with
      | .ok status | .error (.exit status) => some status
      | .error .overdue => none
    .ok ⟨if limit.nanoseconds = 0 then none else status, after.output, after.errors,
      after.surroundings.tree⟩
  else if program.toList.contains '/' then
    match surroundings.find program with
    | .ok _ => .error (.other "Permission denied (os error 13)")
    | .error fault => .error fault
  else if program = "." ∨ program = ".." then .error (.other "Permission denied (os error 13)")
  else .error .notFound

end ChainConformance.Shell
