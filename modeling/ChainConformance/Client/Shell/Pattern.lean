import ChainConformance.Text.Pieces

/-!
# Line patterns

The patterns that `grep` looks for: texts whose characters may be any character, one of a set, or
repeated, with anchors at the ends of the line. A basic pattern takes `+`, `?` and `|` as they are,
an extended one repeats and alternates with them, a fixed one has no special characters.
-/

namespace ChainConformance.Shell

/-- What one character of a line is compared with. -/
inductive CharTest where
  | any
  | is (c : Char)
  /-- One of the ranges, or none of them. -/
  | among (ranges : List (Char × Char)) (negated : Bool)
  deriving DecidableEq, Repr

def CharTest.holds : CharTest → Char → Bool
  | .any, _ => true
  | .is c, d => c = d
  | .among ranges negated, d => (ranges.any fun r => r.1 ≤ d && d ≤ r.2) ≠ negated

inductive Repetition where
  | once
  | optional
  | many
  | atLeastOnce
  deriving DecidableEq, Repr

/-- A sequence of repeated characters, bound to the ends of a line or not. -/
structure Pattern where
  items : List (CharTest × Repetition)
  fromStart : Bool
  toEnd : Bool
  deriving DecidableEq, Repr

namespace Pattern

/-- What may be left of a text after any number of characters that pass the test. -/
def rests (test : CharTest) : List Char → List (List Char)
  | [] => [[]]
  | c :: s => (c :: s) :: (if test.holds c then rests test s else [])

/-- Whether the items match the start of the text, or all of it. -/
def matchesHere (toEnd : Bool) : List (CharTest × Repetition) → List Char → Bool
  | [], s => !toEnd || s.isEmpty
  | (test, .once) :: items, c :: s => test.holds c && matchesHere toEnd items s
  | (_, .once) :: _, [] => false
  | (test, .optional) :: items, s =>
    matchesHere toEnd items s ||
      match s with
      | c :: s => test.holds c && matchesHere toEnd items s
      | [] => false
  | (test, .many) :: items, s => (rests test s).any (matchesHere toEnd items)
  | (test, .atLeastOnce) :: items, s =>
    match s with
    | c :: s => test.holds c && (rests test s).any (matchesHere toEnd items)
    | [] => false

def tails : List Char → List (List Char)
  | [] => [[]]
  | c :: s => (c :: s) :: tails s

def matchesLine (p : Pattern) (line : List Char) : Bool :=
  if p.fromStart then matchesHere p.toEnd p.items line
  else (tails line).any (matchesHere p.toEnd p.items)

/-! ## Reading -/

inductive Form where
  | fixed
  | basic
  | extended
  deriving DecidableEq, Repr

def ofText (s : List Char) : Pattern := ⟨s.map fun c => (.is c, .once), false, false⟩

/-- The ranges of a set, up to its closing bracket. -/
def readRanges (ranges : List (Char × Char)) : List Char → Option (List (Char × Char) × List Char)
  | [] => none
  | ']' :: rest =>
    if ranges.isEmpty then readRanges [(']', ']')] rest else some (ranges.reverse, rest)
  | c :: '-' :: ']' :: rest => some (((c, c) :: ('-', '-') :: ranges).reverse, rest)
  | c :: '-' :: d :: rest => readRanges ((c, d) :: ranges) rest
  | c :: rest => readRanges ((c, c) :: ranges) rest

def readTest : List Char → Option (CharTest × List Char)
  | [] => none
  | '.' :: rest => some (.any, rest)
  | '\\' :: c :: rest => some (.is c, rest)
  | '[' :: '^' :: rest => (readRanges [] rest).map fun p => (.among p.1 true, p.2)
  | '[' :: rest => (readRanges [] rest).map fun p => (.among p.1 false, p.2)
  | c :: rest => some (.is c, rest)

def readRepetition (extended : Bool) : List Char → Repetition × List Char
  | '*' :: rest => (.many, rest)
  | '+' :: rest => if extended then (.atLeastOnce, rest) else (.once, '+' :: rest)
  | '?' :: rest => if extended then (.optional, rest) else (.once, '?' :: rest)
  | rest => (.once, rest)

/-- The items of a pattern and whether it is bound to the end of the line. -/
def readItems (extended : Bool) (items : List (CharTest × Repetition)) : (steps : Nat) →
    List Char → Option (List (CharTest × Repetition) × Bool)
  | 0, _ => none
  | _ + 1, [] => some (items, false)
  | _ + 1, ['$'] => some (items, true)
  | steps + 1, s => do
    let (test, rest) ← readTest s
    let (repetition, rest) := readRepetition extended rest
    readItems extended (items ++ [(test, repetition)]) steps rest

def readOne (extended : Bool) (s : List Char) : Option Pattern := do
  let fromStart := s.head? = some '^'
  let s := if fromStart then s.tail else s
  -- A star at the start of a basic pattern repeats nothing and stands for itself.
  let s := if !extended && s.head? = some '*' then '\\' :: s else s
  let (items, toEnd) ← readItems extended [] (s.length + 1) s
  return ⟨items, fromStart, toEnd⟩

/-- The patterns of which a line has to match one; none if the text is no pattern. -/
def read? (form : Form) (s : String) : Option (List Pattern) :=
  let lines := Text.splitOn '\n' s.toList
  match form with
  | .fixed => some (lines.map ofText)
  | .basic => lines.mapM (readOne false)
  | .extended => (lines.flatMap (Text.splitOn '|')).mapM (readOne true)

/-- The pattern that also matches the other case of ASCII letters in a line of lower case. -/
def lower (p : Pattern) : Pattern :=
  { p with items := p.items.map fun item => match item with
      | (.is c, r) => (.is c.toLower, r)
      | item => item }

end Pattern

end ChainConformance.Shell
