import ChainConformance.CommandLine.Score
import ChainConformance.CommandLine.ShownTest
import ChainConformance.Export
import ChainConformance.Run.Served

/-!
# Carrying out requests

`execute` carries out the request that the arguments of the program make, in any monad that has
files: it gives the exit code and what is printed. A request that fails keeps what it has printed so
far. Code 1 stands for a failure or for a client that failed a test, code 2 for arguments that make
no request.
-/

namespace ChainConformance.CommandLine

variable {m : Type → Type} [Monad m]

open Job

/-! ## Runs -/

/-- Runs the suites with a client that is handed chains or connects to a server. -/
def runSuites (e : Environment m) (c : Collection) (settings : RunSettings) (client : ClientCommand)
    (console : Console) : Except Error (SortedMap String SuiteResults) × Console :=
  let filter : RunFilter := ⟨settings.suite, settings.tests⟩
  if settings.handed then
    let answer : Run.ChainClient Console := fun hostname chain =>
      client.runOnChain e.spawn hostname (chain.der e.sign)
    let (results, state) := Run.start (Run.allLocal filter c e.draws answer) console
    (results, state.client)
  else
    let answer : Run.ServerClient Console := fun hostname _ =>
      client.runOnPort e.spawn hostname e.servedPort
    let server := Server.start c .selectedTest
    let (results, state) := Run.start (Run.allServed filter c answer) (server, console)
    (results, state.client.2)

/-- Runs a client, writes its results and prints their score. Gives the number of failed tests. -/
def run (e : Environment m) (c : Collection) (settings : RunSettings) : Job m Nat := do
  if let some name := settings.suite then
    let _ ← lift (c.suite name)
  let client ← lift (ClientCommand.ofWords settings.command c.root settings.timeout e.handedRoot
    e.handedChain)
  let (results, console) := runSuites e c settings client (.ofTree (← embed e.workingFiles))
  embed (e.keep console.tree)
  if settings.verbose then
    modify fun p => { p with
      output := p.output ++ Shell.textOf console.output
      errors := p.errors ++ Shell.textOf console.errors }
  let results ← lift results
  let manifest ← lift c.manifest
  recordAll e settings.directory manifest results

/-! ## Identifiers -/

def readEdge (text : String) : Except Failure Edge :=
  match Text.cut ':' text.toList with
  | some (source, destination) => .ok ⟨String.ofList source, String.ofList destination⟩
  | none => .error (.plain ("Invalid edge '" ++ text ++ "', expected SOURCE:DESTINATION"))

/-- The defect of a name in any case. -/
def readDefect (text : String) : Except Failure PathBuilding.Defect :=
  match PathBuilding.Defect.all.find? fun d => Text.sameIgnoringCase d.name text with
  | some d => .ok d
  | none => .error (.plain ("Unknown reason '" ++ text ++ "'"))

def encode (graph source target : String) (edges : List String) (reason : Option String) :
    Except Failure String := do
  let graph ← (Catalog.standard.graph graph).mapError Failure.ofError
  let broken ← edges.mapM readEdge
  let defect ← reason.mapM readDefect
  let scenario := { PathBuilding.Scenario.sound graph source target with broken, defect }
  (PathBuilding.encode scenario .standard).mapError Failure.ofError

/-! ## Requests -/

/-- Carries out a request and gives the exit code. -/
def perform (e : Environment m) (call : Call) : Job m Nat := do
  match call.request with
  | .serve _ =>
    let _ ← loadCollection e call.rootPath
    throw ⟨"Failed to start server", ["no sockets"]⟩
  | .showTest suite index view =>
    showTest e (← loadCollection e call.rootPath) suite index view
    return 0
  | .writeManifest output =>
    let manifest ← lift (← loadCollection e call.rootPath).manifest
    deliver e output manifest.render
    return 0
  | .writeExport suite tests output =>
    let c ← loadCollection e call.rootPath
    if let some name := suite then
      let _ ← lift (c.suite name)
    let exported ← lift (c.exportAll e.draws ⟨suite, tests⟩)
    deliver e output (exported.toJson e.sign).pretty
    return 0
  | .run settings => return exitCode (← run e (← loadCollection e call.rootPath) settings)
  | .encode graph source target edges reason =>
    match encode graph source target edges reason with
    | .ok label => printLine label
    | .error failure => throw failure
    return 0
  | .decode label =>
    printLine (← lift (PathBuilding.decode label .standard)).toJson.pretty
    return 0
  | .summarize manifest suite results json =>
    return exitCode (← summarize e manifest suite results json)

/-- How the program ends. -/
structure Outcome where
  code : Nat
  output : String
  errors : String
  deriving DecidableEq, Repr

/-- What is said about arguments that make no request. -/
def refusal (fault : UsageFault) : Outcome :=
  match fault with
  | .help => ⟨0, about ++ "\n", ""⟩
  | .nothing => ⟨2, "", about ++ "\n"⟩
  | fault => ⟨2, "", "error: " ++ fault.message ++ "\n\nFor more information, try '--help'.\n"⟩

/-- Carries out what the arguments ask for. -/
def execute (e : Environment m) (arguments : List String) : m Outcome := do
  match Call.read arguments with
  | .error fault => return refusal fault
  | .ok call =>
    let (result, printed) ← (perform e call).run.run {}
    match result with
    | .ok code => return ⟨code, printed.output, printed.errors⟩
    | .error failure => return ⟨1, printed.output, printed.errors ++ failure.render⟩

end ChainConformance.CommandLine
