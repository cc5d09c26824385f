import ChainConformance.Client.Duration
import ChainConformance.Root
import ChainConformance.Text.Blank

/-!
# Client commands

A client is a command, the program first, that is run once for each test: status zero accepts the
chain, any other status rejects it. The placeholders `{ca}`, `{host}`, `{port}`, `{url}` and
`{chain}` in its arguments give way to what the client needs for the test. `ClientCommand.run`
starts the command through a `Spawner` and gives up when the time limit is over.
-/

namespace ChainConformance

/-! ## Placeholders -/

/-- What the placeholders stand for. A local run has no port, a served run has no chain file. -/
structure Placeholders where
  rootPath : String
  host : String
  port : Option Nat
  chainPath : Option String
  deriving DecidableEq, Repr

namespace Placeholders

def portText (p : Placeholders) : String := (p.port.map Text.decimal).getD ""

def url (p : Placeholders) : String := "https://" ++ p.host ++ ":" ++ p.portText ++ "/"

/-- The placeholders and their values, in the order in which they are put in. -/
def values (p : Placeholders) : List (String × String) :=
  [("\x7burl\x7d", p.url), ("\x7bca\x7d", p.rootPath), ("\x7bhost\x7d", p.host),
   ("\x7bport\x7d", p.portText), ("\x7bchain\x7d", p.chainPath.getD "")]

/-- The argument with one placeholder after the other put in. A value that holds a placeholder of
its own meets those that come later. -/
def substitute (p : Placeholders) (argument : String) : String :=
  String.ofList (p.values.foldl
    (fun text value => Text.replace value.1.toList value.2.toList text) argument.toList)

end Placeholders

/-! ## Commands -/

/-- A program to start, its arguments, and the files that it is handed by their paths. -/
structure Invocation where
  program : String
  arguments : List String
  files : List (String × Bytes)
  deriving DecidableEq, Repr

/-- A way to start programs, in a state of its own. The answer is the exit status, if the program
has ended within the time limit, or the reason why it could not be started. -/
abbrev Spawner (σ : Type) :=
  Invocation → (limit : Duration) → σ → Except FileFault (Option Nat) × σ

/-- A client command for one trust root, with its time limit and the paths for its files. -/
structure ClientCommand where
  program : String
  arguments : List String
  root : Root
  timeout : Duration
  rootPath : String
  chainPath : String

namespace ClientCommand

/-- A command without a program, or with a blank one, is no client. -/
def ofWords (command : List String) (root : Root) (timeout : Duration)
    (rootPath chainPath : String) : Except Error ClientCommand :=
  match command with
  | [] => .error .emptyCommand
  | program :: arguments =>
    if (Text.trim program.toList).isEmpty then .error .emptyCommand
    else .ok ⟨program, arguments, root, timeout, rootPath, chainPath⟩

/-- The text of a chain file, leaf first. -/
def chainPem (chain : List Bytes) : String :=
  String.join (chain.map (Pem.render "CERTIFICATE"))

/-- The command for a test on a server's port, or for a chain in a file. -/
def invocation (c : ClientCommand) (host : String) (port : Option Nat)
    (chain : Option (List Bytes)) : Invocation :=
  let placeholders : Placeholders := ⟨c.rootPath, host, port, chain.map fun _ => c.chainPath⟩
  ⟨c.program, c.arguments.map placeholders.substitute,
    (c.rootPath, Bytes.ofString c.root.certificatePem) ::
      (chain.map fun ders => (c.chainPath, Bytes.ofString (chainPem ders))).toList⟩

/-- Whether a text can be passed to a program; the character NUL cannot. -/
def isPassable (s : String) : Bool := !s.toList.contains '\x00'

/-- Runs the client once. -/
def run {σ : Type} (spawn : Spawner σ) (c : ClientCommand) (host : String) (port : Option Nat)
    (chain : Option (List Bytes)) (state : σ) : Except Error Bool × σ :=
  let invocation := c.invocation host port chain
  if (invocation.program :: invocation.arguments).all isPassable then
    match spawn invocation c.timeout state with
    | (.error fault, state) => (.error (.notStarted c.program fault), state)
    | (.ok none, state) => (.error (.timedOut c.program c.timeout.render), state)
    | (.ok (some status), state) => (.ok (status = 0), state)
  else (.error (.notStarted c.program (.other "nul byte found in provided data")), state)

/-- Has the client connect to a server's port. -/
def runOnPort {σ : Type} (spawn : Spawner σ) (c : ClientCommand) (host : String) (port : Nat) :
    σ → Except Error Bool × σ :=
  c.run spawn host (some port) none

/-- Hands the client a chain. -/
def runOnChain {σ : Type} (spawn : Spawner σ) (c : ClientCommand) (host : String)
    (chain : List Bytes) : σ → Except Error Bool × σ :=
  c.run spawn host none (some chain)

end ClientCommand

end ChainConformance
