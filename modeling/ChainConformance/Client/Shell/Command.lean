import ChainConformance.Client.Shell.Expansion
import ChainConformance.Client.Shell.Utility

/-!
# Running commands

A simple command assigns variables and then runs what its first field names: something that only a
script can do, a shell, or a utility.
-/

namespace ChainConformance.Shell

def shells : List String := ["sh", "bash", "dash"]

/-- The last name of a path in the directories of programs, or a name without slashes. -/
def programName? (path : String) : Option String :=
  if !path.toList.contains '/' then some path
  else
    (["/bin/", "/usr/bin/"].findSome? fun directory =>
      Text.afterPrefix? directory.toList path.toList).bind fun name =>
        if name.contains '/' then none else some (String.ofList name)

def runText (runScript : Script → Run Nat) (text name : String) (arguments : List String) :
    Run Nat :=
  match Script.read? text.toList with
  | none => do
    Run.printError (name ++ ": syntax error")
    return 2
  | some script =>
    Run.inside (fun s => { s with name, arguments, bindings := [], status := 0 })
      (runScript script)

/-- A shell as a program: a script after the option `c`, in a file, or in the input. -/
def runShell (runScript : Script → Run Nat) (shell : String) : List String → Run Nat
  | [] => do runText runScript (textOf (← get).input) shell []
  | option :: rest => do
    match option.toList with
    | '-' :: letters =>
      if letters.contains 'c' then
        match rest with
        | text :: rest => runText runScript text (rest.headD shell) rest.tail
        | [] =>
          Run.printError (shell ++ ": -c requires an argument")
          return 2
      else runShell runScript shell rest
    | _ =>
      match operand (← get).surroundings [] option with
      | .ok contents => runText runScript (textOf contents) option rest
      | .error fault =>
        Run.printError (shell ++ ": " ++ option ++ ": " ++ faultText fault)
        return 2

/-- The status that `kill` gives; a script that kills itself ends. -/
def runKill (arguments : List String) : Run Nat :=
  match arguments with
  | ["-0", target] => return if target = ownNumber then 0 else 1
  | [target] | [_, target] | ["-s", _, target] =>
    if target = ownNumber then throw (.exit 137) else return 1
  | _ => return 2

def runProgram (runScript : Script → Run Nat) (program : String) (arguments : List String) :
    Run Nat := do
  let name := (programName? program).getD ""
  if shells.contains name then runShell runScript name arguments
  else if name = "kill" then runKill arguments
  else
    let s ← get
    match utilities.lookup name with
    | some utility =>
      let report := utility s.surroundings s.input arguments
      let elapsed := s.elapsed.nanoseconds + report.elapsed.nanoseconds
      set { s with
        output := s.output ++ report.output, errors := s.errors ++ report.errors
        elapsed := ⟨elapsed⟩ }
      if s.limit.nanoseconds ≤ elapsed then throw .overdue
      return report.status
    | none =>
      if program.toList.contains '/' && (s.surroundings.find program).toBool then
        Run.printError (program ++ ": Permission denied")
        return 126
      Run.printError (program ++ ": not found")
      return 127

/-- Runs the fields of a simple command, which may name what only a script can do. -/
def runCommand (runScript : Script → Run Nat) : List String → Run Nat
  | [] => return (← get).status
  | ":" :: _ => return 0
  | ["exit"] => do throw (.exit (← get).status)
  | "exit" :: status :: _ => throw (.exit ((natural? status.toList).getD 2 % 256))
  | ["exec"] => return 0
  | "exec" :: rest => do throw (.exit (← runCommand runScript rest))
  | "shift" :: _ => do
    modify fun s => { s with arguments := s.arguments.tail }
    return 0
  | program :: arguments => runProgram runScript program arguments

def hasOutput (w : Word) : Bool :=
  w.any fun
    | .output .. => true
    | _ => false

/-- A simple command: its assignments first, then the fields of its other words. -/
def runSimple (runScript : Script → Run Nat) (words : List Word) : Run Nat := do
  let assignments := words.takeWhile fun w => (assignment? w).isSome
  let rest := words.drop assignments.length
  for (name, value) in assignments.filterMap assignment? do
    let text ← expandText runScript value
    modify fun s => { s with bindings := (name, text) :: s.bindings }
  let fields := (← rest.mapM (expandWord runScript)).flatten
  if fields.isEmpty && !words.any hasOutput then return 0
  runCommand runScript fields

end ChainConformance.Shell
