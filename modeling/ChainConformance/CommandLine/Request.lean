import ChainConformance.CommandLine.Grammar

/-!
# Requests

What the program can be asked to do. `Request.read` reads a request and the options common to all
from the arguments of the program.
-/

namespace ChainConformance.CommandLine

/-- How a test is shown. -/
inductive TestView where
  | description
  | json
  | pem
  deriving DecidableEq, Repr

/-- The settings of a run. -/
structure RunSettings where
  suite : Option String
  tests : Option IndexSet
  timeout : Duration
  /-- Whether the client is handed chains instead of connecting to a server. -/
  handed : Bool
  /-- Whether the client's own output is shown. -/
  verbose : Bool
  directory : String
  command : List String
  deriving DecidableEq, Repr

/-- The settings of a server. -/
structure ServerSettings where
  address : String
  controlPort : Nat
  tlsPort : Nat
  /-- Whether the host name that a client asks for chooses the test. -/
  byHostname : Bool
  deriving DecidableEq, Repr

inductive Request where
  | serve (settings : ServerSettings)
  | showTest (suite : String) (index : Nat) (view : TestView)
  | writeManifest (output : Option String)
  | writeExport (suite : Option String) (tests : Option IndexSet) (output : Option String)
  | run (settings : RunSettings)
  | encode (graph source target : String) (edges : List String) (reason : Option String)
  | decode (label : String)
  | summarize (manifest : String) (suite : Option String) (results : List String) (json : Bool)
  deriving DecidableEq, Repr

/-! ## Grammars -/

/-- An option with a value. -/
def option (long name : String) (kind : ValueKind) : Opt := { long, value := some (name, kind) }

def flag (long : String) : Opt := { long }

def outputOption : Opt :=
  { long := "output", short := some 'o', value := some ("OUTPUT", .path) }

def suiteOption : Opt := option "suite" "SUITE" .text

def testsOption : Opt := option "test-case" "TEST_CASE" .indexSet

def serverGrammar : Grammar :=
  ⟨[option "bind" "BIND" .address, option "port" "PORT" .port, option "tls-port" "TLS_PORT" .port,
    flag "hostname-encoded"], []⟩

def testGrammar : Grammar :=
  ⟨[flag "json", { flag "pem" with excludes := ["json"] }],
   [⟨"SUITE", .text, false, false⟩, ⟨"TEST_CASE", .index, false, false⟩]⟩

def manifestGrammar : Grammar := ⟨[outputOption], []⟩

def exportGrammar : Grammar := ⟨[suiteOption, testsOption, outputOption], []⟩

def runGrammar : Grammar :=
  ⟨[suiteOption, testsOption, option "timeout" "TIMEOUT" .duration, flag "local", flag "verbose",
    option "output-dir" "OUTPUT_DIR" .path],
   [⟨"COMMAND", .text, true, true⟩]⟩

def encodeGrammar : Grammar :=
  ⟨[{ option "graph" "GRAPH" .text with required := true },
    { option "src" "SRC" .text with required := true },
    { option "dst" "DST" .text with required := true },
    { option "invalid-edge" "INVALID_EDGES" .text with repeatable := true },
    option "reason" "REASON" .text], []⟩

def decodeGrammar : Grammar := ⟨[], [⟨"LABEL", .text, false, false⟩]⟩

def summarizeGrammar : Grammar :=
  ⟨[{ option "manifest" "MANIFEST" .path with required := true }, suiteOption, flag "json"],
   [⟨"RESULTS", .path, true, false⟩]⟩

def program : Program where
  name := "certsuite"
  options := [option "root-ca" "ROOT_CA" .path]
  commands := [("server", serverGrammar), ("get-test", testGrammar), ("manifest", manifestGrammar),
    ("export", exportGrammar), ("run", runGrammar), ("encode", encodeGrammar),
    ("decode", decodeGrammar), ("summarize", summarizeGrammar)]

/-- What the program is for. -/
def about : String := "Generate, serve and score TLS certificate-chain validation tests"

/-! ## Given values -/

namespace Given

def texts (g : Given) (key : String) : List String :=
  (g.values key).filterMap fun
    | .text s => some s
    | _ => none

def text? (g : Given) (key : String) : Option String := (g.texts key).head?

def number? (g : Given) (key : String) : Option Nat :=
  (g.values key).findSome? fun
    | .number n => some n
    | _ => none

def indexSet? (g : Given) (key : String) : Option IndexSet :=
  (g.values key).findSome? fun
    | .indexSet s => some s
    | _ => none

def duration? (g : Given) (key : String) : Option Duration :=
  (g.values key).findSome? fun
    | .duration d => some d
    | _ => none

end Given

/-! ## Reading -/

/-- A request, and the file of the root if one is named. -/
structure Call where
  rootPath : Option String
  request : Request
  deriving DecidableEq, Repr

/-- The request that a command makes with what was given for it. -/
def Request.ofGiven? (command : String) (g : Given) : Option Request :=
  match command with
  | "server" => some (.serve {
      address := (g.text? "bind").getD "0.0.0.0"
      controlPort := (g.number? "port").getD 8080
      tlsPort := (g.number? "tls-port").getD 8443
      byHostname := g.has "hostname-encoded" })
  | "get-test" => do
    return .showTest (← g.text? "SUITE") (← g.number? "TEST_CASE")
      (if g.has "pem" then .pem else if g.has "json" then .json else .description)
  | "manifest" => some (.writeManifest (g.text? "output"))
  | "export" => some (.writeExport (g.text? "suite") (g.indexSet? "test-case") (g.text? "output"))
  | "run" => some (.run {
      suite := g.text? "suite"
      tests := g.indexSet? "test-case"
      timeout := (g.duration? "timeout").getD (.ofSeconds 10)
      handed := g.has "local"
      verbose := g.has "verbose"
      directory := (g.text? "output-dir").getD "."
      command := g.texts "COMMAND" })
  | "encode" => do
    return .encode (← g.text? "graph") (← g.text? "src") (← g.text? "dst") (g.texts "invalid-edge")
      (g.text? "reason")
  | "decode" => do return .decode (← g.text? "LABEL")
  | "summarize" => do
    return .summarize (← g.text? "manifest") (g.text? "suite") (g.texts "RESULTS") (g.has "json")
  | _ => none

/-- Reads the arguments of the program. An option that stands after the command counts before one
that stands in front of it. -/
def Call.read (arguments : List String) : Except UsageFault Call := do
  let (command, front, given) ← program.read arguments
  let some request := Request.ofGiven? command given | throw .incomplete
  return ⟨(given.text? "root-ca").or (front.text? "root-ca"), request⟩

end ChainConformance.CommandLine
