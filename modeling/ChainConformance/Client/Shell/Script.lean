import ChainConformance.Text.Numeral

/-!
# Shell scripts

The part of the shell language that client commands need: simple commands with quoting, parameters,
command substitution and redirection, joined by `;`, `&&`, `||` and `|`, negated, grouped, chosen
by `if`, or repeated by `while`, `until` and `for`.
-/

namespace ChainConformance.Shell

/-- A piece of a word. What is quoted is never split at blanks. -/
inductive Piece where
  | char (c : Char) (quoted : Bool)
  /-- A pair of quotes with nothing between them. -/
  | nothing
  | parameter (name : List Char) (quoted : Bool)
  /-- The output of a script. -/
  | output (script : List Char) (quoted : Bool)
  deriving DecidableEq, Repr

abbrev Word := List Piece

inductive Direction where
  | input
  | output
  | append
  | duplicate
  deriving DecidableEq, Repr

/-- A stream under its number, and the word that names its new end. -/
structure Redirection where
  stream : Nat
  direction : Direction
  target : Word
  deriving DecidableEq, Repr

inductive Script where
  | simple (words : List Word)
  | redirected (s : Script) (redirections : List Redirection)
  | negated (s : Script)
  | piped (s t : Script)
  /-- The second runs if the first succeeds. -/
  | both (s t : Script)
  /-- The second runs if the first fails. -/
  | either (s t : Script)
  | sequence (s t : Script)
  | branch (condition yes no : Script)
  /-- The body runs as long as the condition has the wanted success. -/
  | loop (wanted : Bool) (condition body : Script)
  /-- The body runs for each field of the words, under the name. -/
  | each (name : List Char) (words : List Word) (body : Script)
  /-- A script whose end does not end the script around it. -/
  | group (s : Script)
  deriving DecidableEq, Repr

def Script.empty : Script := .simple []

def Script.under (s : Script) (redirections : List Redirection) : Script :=
  if redirections.isEmpty then s else .redirected s redirections

end ChainConformance.Shell
