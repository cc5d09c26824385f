import ChainConformance.Error

/-!
# Failures of commands

What a command prints when it fails: a message and, below it, the causes from the outermost to the
innermost, numbered if there are several.
-/

namespace ChainConformance.CommandLine

structure Failure where
  message : String
  causes : List String
  deriving DecidableEq, Repr

namespace Failure

/-- Whether the words after the heading are those of an error of its own, which lies below. -/
def hasInnerError : ErrorKind → Bool
  | .issuance | .io | .json | .tls => true
  | _ => false

/-- An error and those below it. -/
def chainOf (e : Error) : List String :=
  e.message :: if hasInnerError e.kind then [e.detail] else []

def ofError (e : Error) : Failure := ⟨e.message, (chainOf e).tail⟩

/-- A failure at something that an error prevented. -/
def because (message : String) (e : Error) : Failure := ⟨message, chainOf e⟩

/-- A failure without further causes. -/
def plain (message : String) : Failure := ⟨message, []⟩

/-- The text with a margin before each line but the first. -/
def hang (margin : String) (text : String) : String :=
  String.ofList (text.toList.flatMap fun c => if c = '\n' then c :: margin.toList else [c])

/-- One line for each cause, after a number or a margin. -/
def causeLines (causes : List String) : List String :=
  match causes with
  | [cause] => ["    " ++ hang "    " cause]
  | causes => causes.zipIdx.map fun (cause, i) =>
    let number := Text.decimal i
    String.ofList (List.replicate (5 - number.length) ' ') ++ number ++ ": " ++ hang "       " cause

def render (f : Failure) : String :=
  "Error: " ++ f.message ++
    (if f.causes.isEmpty then "" else "\n\nCaused by:\n" ++ Text.join "\n" (causeLines f.causes)) ++
    "\n"

end Failure

end ChainConformance.CommandLine
