import ChainConformance.Client.Shell.Surroundings

/-!
# Printing programs

`echo` prints its arguments with blanks between them, `printf` fills a format from them.
-/

namespace ChainConformance.Shell

def echo : Utility := fun _ _ arguments =>
  match arguments with
  | "-n" :: rest => .printing (Text.join " " rest)
  | rest => .printing (Text.join " " rest ++ "\n")

def escaped? : Char → Option Char
  | 'n' => some '\n'
  | 't' => some '\t'
  | 'r' => some '\r'
  | 'a' => some '\x07'
  | '\\' => some '\\'
  | '"' => some '"'
  | '\'' => some '\''
  | _ => none

/-- A format filled from the arguments, and the arguments that it left; missing ones are empty. -/
def fill (arguments : List String) : List Char → List Char × List String
  | '%' :: '%' :: rest => let (s, left) := fill arguments rest; ('%' :: s, left)
  | '%' :: kind :: rest =>
    let argument := (arguments.headD "").toList
    let shown := match kind with
      | 'd' | 'i' | 'u' => if argument.isEmpty then ['0'] else argument
      | 'c' => argument.take 1
      | _ => argument
    let (s, left) := fill arguments.tail rest
    (shown ++ s, left)
  | '\\' :: c :: rest =>
    let (s, left) := fill arguments rest
    match escaped? c with
    | some d => (d :: s, left)
    | none => ('\\' :: c :: s, left)
  | c :: rest => let (s, left) := fill arguments rest; (c :: s, left)
  | [] => ([], arguments)

/-- The format, filled again while that uses up arguments. -/
def fillAll (format : List Char) : (steps : Nat) → List String → List Char
  | 0, _ => []
  | steps + 1, arguments =>
    let (s, left) := fill arguments format
    if left.isEmpty ∨ left.length = arguments.length then s else s ++ fillAll format steps left

def printf : Utility := fun _ _ arguments =>
  match arguments with
  | [] => .failing 2 "printf: usage: printf format [arguments]"
  | format :: rest =>
    .printing (String.ofList (fillAll format.toList (rest.length + 1) rest))

end ChainConformance.Shell
