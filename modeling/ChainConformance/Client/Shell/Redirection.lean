import ChainConformance.Client.Shell.Expansion

/-!
# Redirections

The streams of a command can end in files or in each other. Redirections take effect from left to
right; one that fails keeps the command from running.
-/

namespace ChainConformance.Shell

inductive Sink where
  | output
  | errors
  | nothing
  | file (path : String)
  deriving DecidableEq, Repr

structure Streams where
  input : Bytes
  output : Sink
  errors : Sink

/-- A stream's new end, after making its file; the previous contents stay if it appends. -/
def openSink (append : Bool) (path : String) : Run (Except FileFault Sink) := do
  if path = "/dev/null" then return .ok .nothing
  let s ← get
  let previous := match s.surroundings.find path with
    | .ok (.file contents) => if append then contents else []
    | _ => []
  match s.surroundings.tree.write path previous with
  | .ok tree =>
    set { s with surroundings := { s.surroundings with tree } }
    return .ok (.file path)
  | .error fault => return .error fault

def Streams.redirect (runScript : Script → Run Nat) (streams : Streams) (r : Redirection) :
    Run (Except FileFault Streams) := do
  let target ← expandText runScript r.target
  match r.direction with
  | .input =>
    match operand (← get).surroundings [] target with
    | .ok input => return .ok { streams with input }
    | .error fault =>
      Run.printError (target ++ ": " ++ faultText fault)
      return .error fault
  | .duplicate =>
    let sink := if target = "1" then streams.output else if target = "2" then streams.errors
      else .nothing
    return .ok (if r.stream = 1 then { streams with output := sink }
      else if r.stream = 2 then { streams with errors := sink } else streams)
  | direction =>
    match ← openSink (direction = .append) target with
    | .ok sink =>
      return .ok (if r.stream = 1 then { streams with output := sink }
        else if r.stream = 2 then { streams with errors := sink } else streams)
    | .error fault =>
      Run.printError (target ++ ": " ++ faultText fault)
      return .error fault

def Session.add (s : Session) (sink : Sink) (b : Bytes) : Session :=
  match sink with
  | .output => { s with output := s.output ++ b }
  | .errors => { s with errors := s.errors ++ b }
  | .nothing => s
  | .file path =>
    let previous := match s.surroundings.tree.read path with
      | .ok contents => contents
      | .error _ => []
    match s.surroundings.tree.write path (previous ++ b) with
    | .ok tree => { s with surroundings := { s.surroundings with tree } }
    | .error _ => s

def runRedirected (runScript : Script → Run Nat) (r : Run Nat) (redirections : List Redirection) :
    Run Nat := do
  let start : Except FileFault Streams := .ok ⟨(← get).input, .output, .errors⟩
  let streams ← redirections.foldlM (fun streams r => match streams with
    | .ok streams => streams.redirect runScript r
    | .error fault => return .error fault) start
  match streams with
  | .error _ => return 2
  | .ok streams =>
    Run.within (fun s => { s with input := streams.input, output := [], errors := [] })
      (fun s t =>
        let before := { t with input := s.input, output := s.output, errors := s.errors }
        (before.add streams.output t.output).add streams.errors t.errors) r

end ChainConformance.Shell
