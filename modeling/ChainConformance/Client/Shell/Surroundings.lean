import ChainConformance.Client.Duration
import ChainConformance.Files.Tree

/-!
# Programs and what they find

A program is a function from the files around it, its input and its arguments to a report of what it
did. None changes a file. `overOperands` is the shape of those that go through the files they are
given.
-/

namespace ChainConformance.Shell

/-- What a program finds: the files that were handed to it by their paths, and the files under the
working directory. -/
structure Surroundings where
  handed : List (String × Bytes)
  tree : FileTree

def systemDirectories : List String := ["/", "/bin", "/dev", "/etc", "/tmp", "/usr", "/usr/bin"]

def Surroundings.find (s : Surroundings) (path : String) : Except FileFault FileNode :=
  match s.handed.find? (·.1 = path) with
  | some (_, contents) => .ok (.file contents)
  | none =>
    if path = "/dev/null" then .ok (.file [])
    else if path.toList.head? = some '/' then
      if systemDirectories.contains path then .ok .directory else .error .notFound
    else s.tree.find path

structure Report where
  status : Nat
  output : Bytes := []
  errors : Bytes := []
  elapsed : Duration := ⟨0⟩

def Report.printing (s : String) : Report := { status := 0, output := Bytes.ofString s }

def Report.failing (status : Nat) (message : String) : Report :=
  { status, errors := Bytes.ofString (message ++ "\n") }

abbrev Utility := (files : Surroundings) → (input : Bytes) → (arguments : List String) → Report

/-- The text of a stream; bytes that are no UTF-8 count as a character each. -/
def textOf (b : Bytes) : String :=
  (Bytes.text? b).getD (String.ofList (b.map fun x => Char.ofNat x.toNat))

/-- The lines of a text; what follows the last line end is a line unless it is empty. -/
def linesOf (s : List Char) : List (List Char) :=
  match (Text.splitOn '\n' s).reverse with
  | [] :: lines => lines.reverse
  | lines => lines.reverse

/-- The contents of an operand: a file, or the input for a dash. -/
def operand (files : Surroundings) (input : Bytes) (path : String) : Except FileFault Bytes :=
  if path = "-" then .ok input
  else match files.find path with
    | .ok (.file contents) => .ok contents
    | .ok .directory => .error .isADirectory
    | .error fault => .error fault

def faultText : FileFault → String
  | .notFound => "No such file or directory"
  | .exists => "File exists"
  | .notADirectory => "Not a directory"
  | .isADirectory => "Is a directory"
  | .other message => message

/-- Runs a filter over its operands, or over the input if there are none. A missing operand is
reported and gives the status `failure`. -/
def overOperands (name : String) (failure : Nat) (filter : Bytes → Bytes) (files : Surroundings)
    (input : Bytes) (paths : List String) : Report :=
  (if paths.isEmpty then ["-"] else paths).foldl (fun report path =>
    match operand files input path with
    | .ok contents => { report with output := report.output ++ filter contents }
    | .error fault =>
      { report with
        status := failure
        errors := report.errors ++
          Bytes.ofString (name ++ ": " ++ path ++ ": " ++ faultText fault ++ "\n") })
    { status := 0 }

end ChainConformance.Shell
