import ChainConformance.Client.Shell.Script

/-!
# Reading scripts

`Script.read?` reads the script that a text holds: first its words and operators, then their
grammar.
-/

namespace ChainConformance.Shell

/-! ## Tokens -/

inductive Token where
  | word (w : Word)
  | operator (s : String)
  | redirect (stream : Nat) (direction : Direction)
  deriving DecidableEq, Repr

def isNameChar (c : Char) : Bool := c.isAlphanum || c = '_'

/-- What follows a dollar sign: a parameter, a script in parentheses, or a plain dollar sign. -/
def readDollar (quoted : Bool) : List Char → Option (Piece × List Char)
  | '(' :: rest => (script 0 [] rest).map fun p => (.output p.1 quoted, p.2)
  | '\x7b' :: rest =>
    let name := rest.takeWhile (· ≠ '\x7d')
    if name.length < rest.length then
      some (.parameter name quoted, rest.drop (name.length + 1)) else none
  | c :: rest =>
    if c.isAlpha ∨ c = '_' then
      some (.parameter ((c :: rest).takeWhile isNameChar) quoted, (c :: rest).dropWhile isNameChar)
    else if Text.Numeral.isDigit c ∨ ['@', '*', '#', '?', '$'].contains c then
      some (.parameter [c] quoted, rest)
    else some (.char '$' quoted, c :: rest)
  | [] => some (.char '$' quoted, [])
where
  /-- The text up to the parenthesis that closes it. -/
  script (depth : Nat) (before : List Char) : List Char → Option (List Char × List Char)
    | [] => none
    | '(' :: rest => script (depth + 1) ('(' :: before) rest
    | ')' :: rest =>
      if depth = 0 then some (before.reverse, rest) else script (depth - 1) (')' :: before) rest
    | c :: rest => script depth (c :: before) rest

/-- A text between double quotes, its opening quote already read. -/
def readQuoted (pieces : Word) : (steps : Nat) → List Char → Option (Word × List Char)
  | 0, _ => none
  | _ + 1, [] => none
  | _ + 1, '"' :: rest => some (if pieces.isEmpty then [.nothing] else pieces, rest)
  | steps + 1, '\\' :: c :: rest =>
    if ['$', '"', '\\'].contains c then readQuoted (pieces ++ [.char c true]) steps rest
    else readQuoted (pieces ++ [.char '\\' true, .char c true]) steps rest
  | steps + 1, '$' :: rest => do
    let (piece, rest) ← readDollar true rest
    readQuoted (pieces ++ [piece]) steps rest
  | steps + 1, c :: rest => readQuoted (pieces ++ [.char c true]) steps rest

def endsWord (c : Char) : Bool :=
  [' ', '\t', '\n', ';', '&', '|', '(', ')', '<', '>'].contains c

def readWord (pieces : Word) : (steps : Nat) → List Char → Option (Word × List Char)
  | 0, _ => none
  | _ + 1, [] => some (pieces, [])
  | steps + 1, '\'' :: rest =>
    let text := rest.takeWhile (· ≠ '\'')
    let quoted := if text.isEmpty then [.nothing] else text.map (.char · true)
    if text.length < rest.length then
      readWord (pieces ++ quoted) steps (rest.drop (text.length + 1))
    else none
  | steps + 1, '"' :: rest => do
    let (quoted, rest) ← readQuoted [] (rest.length + 1) rest
    readWord (pieces ++ quoted) steps rest
  | steps + 1, '\\' :: c :: rest => readWord (pieces ++ [.char c true]) steps rest
  | steps + 1, '$' :: rest => do
    let (piece, rest) ← readDollar false rest
    readWord (pieces ++ [piece]) steps rest
  | steps + 1, c :: rest =>
    if endsWord c then some (pieces, c :: rest)
    else readWord (pieces ++ [.char c false]) steps rest

def redirection? (stream : Option Nat) : List Char → Option (Token × List Char)
  | '>' :: '>' :: rest => some (.redirect (stream.getD 1) .append, rest)
  | '>' :: '&' :: rest => some (.redirect (stream.getD 1) .duplicate, rest)
  | '>' :: rest => some (.redirect (stream.getD 1) .output, rest)
  | '<' :: rest => some (.redirect (stream.getD 0) .input, rest)
  | _ => none

def operator? : List Char → Option (Token × List Char)
  | '&' :: '&' :: rest => some (.operator "&&", rest)
  | '|' :: '|' :: rest => some (.operator "||", rest)
  | '|' :: rest => some (.operator "|", rest)
  | ';' :: rest => some (.operator ";", rest)
  | '\n' :: rest => some (.operator ";", rest)
  | '(' :: rest => some (.operator "(", rest)
  | ')' :: rest => some (.operator ")", rest)
  | c :: rest =>
    if Text.Numeral.isDigit c then redirection? (some (Text.Numeral.digitValue c)) rest
    else redirection? none (c :: rest)
  | [] => none

def tokens? : (steps : Nat) → List Char → Option (List Token)
  | 0, _ => none
  | _ + 1, [] => some []
  | steps + 1, c :: rest =>
    if c = ' ' ∨ c = '\t' then tokens? steps rest
    else if c = '#' then tokens? steps (rest.dropWhile (· ≠ '\n'))
    else match operator? (c :: rest) with
      | some (t, rest) => (tokens? steps rest).map (t :: ·)
      | none => do
        let (w, rest) ← readWord [] (rest.length + 2) (c :: rest)
        if w.isEmpty then none
        return .word w :: (← tokens? steps rest)

/-! ## Grammar -/

/-- The text of a word without quotes and expansions. -/
def plainText? (w : Word) : Option String :=
  (w.mapM fun p => match p with
    | Piece.char c false => some c
    | _ => none).map String.ofList

/-- Whether the next token is the given unquoted word. -/
def startsWith (keyword : String) : List Token → Bool
  | .word w :: _ => plainText? w = some keyword
  | _ => false

/-- What follows a keyword that must come next. -/
def expect? (keyword : String) (ts : List Token) : Option (List Token) :=
  if startsWith keyword ts then some ts.tail else none

def keywords : List String :=
  ["if", "then", "elif", "else", "fi", "while", "until", "for", "do", "done", "case", "esac", "!",
   "\x7b", "\x7d"]

def closers : List String := ["then", "elif", "else", "fi", "do", "done", "\x7d"]

def readRedirections (before : List Redirection) :
    List Token → Option (List Redirection × List Token)
  | .redirect stream direction :: .word w :: rest =>
    readRedirections (before ++ [⟨stream, direction, w⟩]) rest
  | .redirect .. :: _ => none
  | rest => some (before, rest)

def readSimple (words : List Word) (redirections : List Redirection) :
    List Token → Option (Script × List Token)
  | .word w :: rest => readSimple (words ++ [w]) redirections rest
  | .redirect stream direction :: .word w :: rest =>
    readSimple words (redirections ++ [⟨stream, direction, w⟩]) rest
  | .redirect .. :: _ => none
  | rest =>
    if words.isEmpty && redirections.isEmpty then none
    else some (.under (.simple words) redirections, rest)

def skipSeparators : List Token → List Token
  | .operator ";" :: rest => skipSeparators rest
  | ts => ts

def readWords (words : List Word) : List Token → List Word × List Token
  | .word w :: rest => readWords (words ++ [w]) rest
  | rest => (words, rest)

/-- The name after `for` and the words after `in`; without them, the arguments of the script. -/
def readHead? : List Token → Option (List Char × List Word × List Token)
  | .word w :: rest => do
    let name ← plainText? w
    match expect? "in" rest with
    | some rest =>
      let (words, rest) := readWords [] rest
      return (name.toList, words, skipSeparators rest)
    | none => return (name.toList, [[.parameter ['@'] true]], skipSeparators rest)
  | _ => none

inductive Rule where
  | list
  | chain
  | pipeline
  | command
  /-- What follows the condition of a branch. -/
  | alternatives

def parse? : (steps : Nat) → Rule → List Token → Option (Script × List Token)
  | 0, _, _ => none
  | steps + 1, .list, ts => do
    let (first, rest) ← parse? steps .chain (skipSeparators ts)
    match rest with
    | .operator ";" :: rest =>
      match skipSeparators rest with
      | [] => return (first, [])
      | .operator ")" :: rest => return (first, .operator ")" :: rest)
      | rest =>
        if closers.any (startsWith · rest) then return (first, rest)
        let (others, rest) ← parse? steps .list rest
        return (.sequence first others, rest)
    | rest => return (first, rest)
  | steps + 1, .chain, ts => do
    let (first, rest) ← parse? steps .pipeline ts
    links steps first rest
  | steps + 1, .pipeline, ts => do
    if startsWith "!" ts then
      let (s, rest) ← parse? steps .pipeline ts.tail
      return (.negated s, rest)
    let (first, rest) ← parse? steps .command ts
    match rest with
    | .operator "|" :: rest =>
      let (others, rest) ← parse? steps .pipeline (skipSeparators rest)
      return (.piped first others, rest)
    | rest => return (first, rest)
  | steps + 1, .command, ts =>
    match ts with
    | .operator "(" :: rest => do
      let (s, rest) ← parse? steps .list rest
      match rest with
      | .operator ")" :: rest =>
        let (redirections, rest) ← readRedirections [] rest
        return (.under (.group s) redirections, rest)
      | _ => none
    | ts =>
      if startsWith "\x7b" ts then do
        let (s, rest) ← parse? steps .list ts.tail
        let (redirections, rest) ← readRedirections [] (← expect? "\x7d" rest)
        return (s.under redirections, rest)
      else if startsWith "if" ts then do
        let (condition, rest) ← parse? steps .list ts.tail
        let (yes, rest) ← parse? steps .list (← expect? "then" rest)
        let (no, rest) ← parse? steps .alternatives rest
        let (redirections, rest) ← readRedirections [] rest
        return (.under (.branch condition yes no) redirections, rest)
      else if startsWith "while" ts || startsWith "until" ts then do
        let (condition, rest) ← parse? steps .list ts.tail
        let (body, rest) ← parse? steps .list (← expect? "do" rest)
        let (redirections, rest) ← readRedirections [] (← expect? "done" rest)
        return (.under (.loop (startsWith "while" ts) condition body) redirections, rest)
      else if startsWith "for" ts then do
        let (name, words, rest) ← readHead? ts.tail
        let (body, rest) ← parse? steps .list (← expect? "do" rest)
        let (redirections, rest) ← readRedirections [] (← expect? "done" rest)
        return (.under (.each name words body) redirections, rest)
      else if keywords.any (startsWith · ts) then none
      else readSimple [] [] ts
  | steps + 1, .alternatives, ts =>
    if startsWith "fi" ts then some (.empty, ts.tail)
    else if startsWith "else" ts then do
      let (s, rest) ← parse? steps .list ts.tail
      return (s, ← expect? "fi" rest)
    else do
      let (condition, rest) ← parse? steps .list (← expect? "elif" ts)
      let (yes, rest) ← parse? steps .list (← expect? "then" rest)
      let (no, rest) ← parse? steps .alternatives rest
      return (.branch condition yes no, rest)
where
  /-- Further pipelines that a script is joined with. -/
  links (steps : Nat) (first : Script) (ts : List Token) : Option (Script × List Token) :=
    match steps, ts with
    | 0, _ => none
    | steps + 1, .operator "&&" :: rest => do
      let (s, rest) ← parse? steps .pipeline (skipSeparators rest)
      links steps (.both first s) rest
    | steps + 1, .operator "||" :: rest => do
      let (s, rest) ← parse? steps .pipeline (skipSeparators rest)
      links steps (.either first s) rest
    | _ + 1, rest => some (first, rest)

def Script.read? (s : List Char) : Option Script := do
  match skipSeparators (← tokens? (s.length + 1) s) with
  | [] => some .empty
  | ts =>
    let (script, rest) ← parse? (8 * ts.length + 8) .list ts
    if rest.isEmpty then some script else none

end ChainConformance.Shell
