import ChainConformance.Client.Shell.Console
import ChainConformance.Collection
import ChainConformance.CommandLine.Failure
import ChainConformance.Files.Tree

/-!
# What a command works with

A command runs in any monad that has files. Its parts are of type `Job`: they print, and they may
fail, which keeps what was printed before.
-/

namespace ChainConformance.CommandLine

/-- What the program finds around it. -/
structure Environment (m : Type → Type) where
  files : FileAccess m
  sign : KeyPair → Bytes → Bytes
  /-- The draws for a new root. -/
  rootDraws : X509.Draws
  /-- The draws for the chain of a test. -/
  draws : (suite : String) → (index : Nat) → X509.Draws
  /-- How clients are started. -/
  spawn : Spawner Console := Console.spawn
  /-- The files that clients find in the working directory. -/
  workingFiles : m FileTree
  /-- Keeps the files that clients leave there. -/
  keep : FileTree → m Unit
  /-- The paths of the files that are handed to clients. -/
  handedRoot : String
  handedChain : String
  /-- The port at which clients find the server of a run. -/
  servedPort : Nat

/-- What has been printed. -/
structure Printed where
  output : String := ""
  errors : String := ""

/-- A part of a command, which prints and may fail. -/
abbrev Job (m : Type → Type) := ExceptT Failure (StateT Printed m)

variable {m : Type → Type} [Monad m]

namespace Job

def embed {α : Type} (part : m α) : Job m α := ExceptT.lift (StateT.lift part)

def print (s : String) : Job m Unit := modify fun p => { p with output := p.output ++ s }

def printLine (s : String) : Job m Unit := print (s ++ "\n")

/-- The value, or the failure that its error makes. -/
def check {α : Type} (failure : Error → Failure) : Except Error α → Job m α
  | .ok a => return a
  | .error e => throw (failure e)

def lift {α : Type} (r : Except Error α) : Job m α := check .ofError r

end Job

open Job

/-! ## Files -/

def readFile (e : Environment m) (path : String) : Job m Bytes := do
  match ← embed (e.files.read path) with
  | .ok contents => return contents
  | .error fault => throw ⟨"Failed to read file: " ++ path, [fault.message]⟩

def writeFile (e : Environment m) (path contents : String) : Job m Unit := do
  match ← embed (e.files.write path (Bytes.ofString contents)) with
  | .ok () => return ()
  | .error fault => throw ⟨"Failed to write file: " ++ path, [fault.message]⟩

/-- Writes into a file, or prints if none is named. -/
def deliver (e : Environment m) (output : Option String) (contents : String) : Job m Unit :=
  match output with
  | some path => writeFile e path contents
  | none => printLine contents

/-- The suites over the root in a file, or over a new root. -/
def loadCollection (e : Environment m) (rootPath : Option String) : Job m Collection := do
  let fresh := Root.generate e.sign e.rootDraws
  let root ← match rootPath with
    | none => pure fresh
    | some path =>
      check (.because ("Failed to load root CA: " ++ path))
        (← embed (Root.load e.files fresh path).run)
  check (.because "Failed to build test suites") (Collection.ofRoot root)

end ChainConformance.CommandLine
