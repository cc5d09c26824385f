import ChainConformance.Client.Shell.Reader
import ChainConformance.Client.Shell.Session

/-!
# Expanding words

Before a command runs, the parameters and the scripts in its words give way to their values. Where
they are not quoted, blanks in a value cut the word into fields.
-/

namespace ChainConformance.Shell

/-- The number under which a script knows itself. -/
def ownNumber : String := "2026"

def Session.value (s : Session) (name : List Char) : String :=
  match name with
  | ['0'] => s.name
  | ['@'] | ['*'] => Text.join " " s.arguments
  | ['#'] => Text.decimal s.arguments.length
  | ['?'] => Text.decimal s.status
  | ['$'] => ownNumber
  | name =>
    match (String.ofList name).toNat? with
    | some (n + 1) => (s.arguments[n]?).getD ""
    | _ => ((s.bindings.find? (·.1 = name)).map (·.2)).getD ""

/-- The value of a parameter, or what follows `:-` in its braces if that is empty. -/
def Session.expand (s : Session) (inner : List Char) : String :=
  match Text.cut ':' inner with
  | some (name, '-' :: other) =>
    let value := s.value name
    if value = "" then String.ofList other else value
  | _ => s.value inner

/-- An expanded piece, character by character. -/
inductive Mark where
  | char (c : Char)
  /-- The end of a field, if one has begun. -/
  | boundary
  /-- The start of a field, which may stay empty. -/
  | begin
  deriving DecidableEq, Repr

/-- The fields that marks make, after those and the begun one before them. -/
def fields (done : List String) (current : Option (List Char)) : List Mark → List String
  | [] => match current with
    | some s => (String.ofList s.reverse :: done).reverse
    | none => done.reverse
  | .char c :: rest => fields done (some (c :: current.getD [])) rest
  | .begin :: rest => fields done (some (current.getD [])) rest
  | .boundary :: rest => match current with
    | some s => fields (String.ofList s.reverse :: done) none rest
    | none => fields done none rest

/-- A value as marks; unless it is quoted, its blanks end fields. -/
def marksOf (quoted : Bool) (value : String) : List Mark :=
  if quoted then .begin :: value.toList.map .char
  else value.toList.map fun c => if c = ' ' ∨ c = '\t' ∨ c = '\n' then .boundary else .char c

def expandPiece (runScript : Script → Run Nat) : Piece → Run (List Mark)
  | .char c _ => return [.char c]
  | .nothing => return [.begin]
  | .parameter ['@'] true => do
    return (((← get).arguments.map (marksOf true)).intersperse [.boundary]).flatten
  | .parameter inner quoted => return marksOf quoted ((← get).expand inner)
  | .output text quoted => do
    match Script.read? text with
    | none =>
      Run.printError "syntax error"
      throw (.exit 2)
    | some script =>
      let (status, output) ← Run.capture (Run.inside id (runScript script))
      modify fun s => { s with status }
      let value := ((textOf output).toList.reverse.dropWhile (· = '\n')).reverse
      return marksOf quoted (String.ofList value)

def expandWord (runScript : Script → Run Nat) (w : Word) : Run (List String) := do
  return fields [] none (← w.mapM (expandPiece runScript)).flatten

/-- The word as one text, whatever blanks its expansions have. -/
def expandText (runScript : Script → Run Nat) (w : Word) : Run String := do
  let quoted := w.map fun
    | .parameter ['@'] _ => .parameter ['*'] true
    | .parameter name _ => .parameter name true
    | .output script _ => .output script true
    | piece => piece
  return Text.join " " (← expandWord runScript quoted)

/-- The variable that a word assigns to, and the word for its value. -/
def assignment? (w : Word) : Option (List Char × Word) :=
  let name := w.takeWhile fun
    | .char c false => isNameChar c
    | _ => false
  match plainText? name, w.drop name.length with
  | some text, .char '=' false :: value =>
    match text.toList with
    | c :: _ => if Text.Numeral.isDigit c then none else some (text.toList, value)
    | [] => none
  | _, _ => none

end ChainConformance.Shell
