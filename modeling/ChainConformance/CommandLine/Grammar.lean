import ChainConformance.CommandLine.Value
import ChainConformance.Text.Pieces

/-!
# Reading arguments

A grammar lists the options and positions of a command; `Grammar.read` reads the arguments of one.
An option without attached value waits for the next argument, and values are checked when the next
option or position begins, so the first fault from the left counts. After two dashes all arguments
stand for themselves.
-/

namespace ChainConformance.CommandLine

/-- A named argument. -/
structure Opt where
  long : String
  short : Option Char := none
  /-- The name of its value in messages, and what that has to be; a flag has none. -/
  value : Option (String × ValueKind) := none
  repeatable : Bool := false
  required : Bool := false
  /-- Options that must not be given with it. -/
  excludes : List String := []

/-- An argument without a name. -/
structure Position where
  name : String
  kind : ValueKind
  /-- Whether it takes all further positions. -/
  repeatable : Bool := false
  /-- Whether it takes all that follows its first argument, which may look like an option. -/
  trailing : Bool := false

structure Grammar where
  options : List Opt
  /-- All of them are required. -/
  positions : List Position

/-! ## Faults -/

/-- Why arguments are refused, or what they ask for instead. -/
inductive UsageFault where
  | unexpected (argument : String)
  | unknownCommand (name : String)
  | valueMissing (label : String)
  | valueUnwanted (value label : String)
  | valueInvalid (value label reason : String)
  | repeated (label : String)
  | excluded (label other : String)
  | incomplete
  | noCommand (program : String)
  /-- Nothing is asked for. -/
  | nothing
  | help
  deriving DecidableEq, Repr

def UsageFault.message : UsageFault → String
  | unexpected argument => "unexpected argument '" ++ argument ++ "' found"
  | unknownCommand name => "unrecognized subcommand '" ++ name ++ "'"
  | valueMissing label => "a value is required for '" ++ label ++ "' but none was supplied"
  | valueUnwanted value label =>
    "unexpected value '" ++ value ++ "' for '" ++ label ++ "' found; no more were expected"
  | valueInvalid value label reason =>
    "invalid value '" ++ value ++ "' for '" ++ label ++ "': " ++ reason
  | repeated label => "the argument '" ++ label ++ "' cannot be used multiple times"
  | excluded label other => "the argument '" ++ label ++ "' cannot be used with '" ++ other ++ "'"
  | incomplete => "the following required arguments were not provided:"
  | noCommand program => "'" ++ program ++ "' requires a subcommand but one was not provided"
  | nothing | help => ""

/-! ## Arguments that are given -/

/-- The option that every command has. -/
def helpOption : Opt := { long := "help", short := some 'h' }

def Opt.label (o : Opt) : String :=
  "--" ++ o.long ++ (o.value.map fun v => " <" ++ v.1 ++ ">").getD ""

def Position.label (p : Position) : String :=
  "<" ++ p.name ++ ">" ++ if p.repeatable then "..." else ""

/-- What a value can belong to. -/
inductive Slot where
  | option (o : Opt)
  | position (p : Position)

namespace Slot

/-- The key under which the values are kept. -/
def key : Slot → String
  | option o => o.long
  | position p => p.name

def label : Slot → String
  | option o => o.label
  | position p => p.label

def repeatable : Slot → Bool
  | option o => o.repeatable
  | position p => p.repeatable

def kind? : Slot → Option ValueKind
  | option o => o.value.map (·.2)
  | position p => some p.kind

end Slot

/-- The arguments that were given, in the order of their first appearance, with their values. -/
abbrev Given := List (String × List Value)

namespace Given

def has (g : Given) (key : String) : Bool := g.any (·.1 = key)

def values (g : Given) (key : String) : List Value := (g.lookup key).getD []

/-- Adds values to those of a key. -/
def add (g : Given) (key : String) (values : List Value) : Given :=
  if g.has key then g.map fun e => if e.1 = key then (key, e.2 ++ values) else e
  else g ++ [(key, values)]

end Given

/-! ## Reading -/

/-- How far the arguments have been read. -/
structure Progress where
  given : Given := []
  /-- What the last arguments belong to, and their texts, which are not checked yet. -/
  pending : Option (Slot × List String) := none
  /-- Whether the pending option still lacks its value. -/
  waiting : Bool := false
  /-- The number of the position that comes next. -/
  position : Nat := 0
  /-- Whether all further arguments stand for themselves. -/
  verbatim : Bool := false

def readValue (slot : Slot) (kind : ValueKind) (s : String) : Except UsageFault Value :=
  (kind.read s).mapError fun
    | .missing => .valueMissing slot.label
    | .invalid reason => .valueInvalid s slot.label reason

/-- Takes in a slot with its texts. -/
def accept (g : Given) (slot : Slot) (texts : List String) : Except UsageFault Given := do
  if slot.kind?.isSome && texts.isEmpty then throw (.valueMissing slot.label)
  if g.has slot.key && !slot.repeatable then throw (.repeated slot.label)
  if slot.key = helpOption.long then throw .help
  match slot.kind? with
  | none => return g.add slot.key []
  | some kind => return g.add slot.key (← texts.mapM (readValue slot kind))

namespace Progress

/-- Takes in what is pending. -/
def settle (p : Progress) : Except UsageFault Progress :=
  match p.pending with
  | none => .ok p
  | some (slot, texts) => do
    return { p with given := ← accept p.given slot texts, pending := none, waiting := false }

end Progress

namespace Grammar

def option? (g : Grammar) (name : String) : Option Opt :=
  (helpOption :: g.options).find? (·.long = name)

def shortOption? (g : Grammar) (c : Char) : Option Opt :=
  (helpOption :: g.options).find? (·.short = some c)

/-- Whether what comes next may look like an option. -/
def takesAnything (g : Grammar) (p : Progress) : Bool :=
  ((g.positions[p.position]?).map (·.trailing)).getD false

/-- An option that was named, with an attached value or without. -/
def named (p : Progress) (o : Opt) (attached : Option String) : Except UsageFault Progress :=
  match o.value, attached with
  | none, some v => .error (.valueUnwanted v o.label)
  | none, none => do
    let p ← p.settle
    return { p with given := ← accept p.given (.option o) [] }
  | some _, some v => do
    let p ← p.settle
    return { p with given := ← accept p.given (.option o) [v] }
  | some _, none => do
    return { ← p.settle with pending := some (.option o, []), waiting := true }

/-- Options of one letter after a dash; the rest after one that has a value is its value. -/
def letters (g : Grammar) (p : Progress) : List Char → Except UsageFault Progress
  | [] => .ok p
  | c :: rest =>
    match g.shortOption? c with
    | none => .error (.unexpected (String.ofList ['-', c]))
    | some o =>
      if o.value.isNone then do (g.letters (← named p o none) rest)
      else named p o (match rest with
        | [] => none
        | '=' :: v => some (String.ofList v)
        | v => some (String.ofList v))

/-- An argument in a position. -/
def positional (g : Grammar) (unknown : Progress → String → UsageFault) (p : Progress)
    (argument : String) : Except UsageFault Progress :=
  match g.positions[p.position]? with
  | none => .error (unknown p argument)
  | some q =>
    let p := { p with verbatim := p.verbatim || q.trailing }
    match p.pending with
    | some (.position q', texts) =>
      if q'.name = q.name && q.repeatable then
        .ok { p with pending := some (.position q, texts ++ [argument]) }
      else do
        return { ← p.settle with
          pending := some (.position q, [argument])
          position := if q.repeatable then p.position else p.position + 1 }
    | _ => do
      return { ← p.settle with
        pending := some (.position q, [argument])
        position := if q.repeatable then p.position else p.position + 1 }

/-- An argument that does not name an option: the value that is waited for, or a position. -/
def valueOrPosition (g : Grammar) (unknown : Progress → String → UsageFault) (p : Progress)
    (argument : String) : Except UsageFault Progress :=
  match p.waiting, p.pending with
  | true, some (slot, texts) =>
    .ok { p with pending := some (slot, texts ++ [argument]), waiting := false }
  | _, _ => g.positional unknown p argument

/-- The name and the attached value of an argument with two dashes. -/
def cutName (s : List Char) : String × Option String :=
  match Text.cut '=' s with
  | some (name, value) => (String.ofList name, some (String.ofList value))
  | none => (String.ofList s, none)

/-- Reads one argument. -/
def step (g : Grammar) (unknown : Progress → String → UsageFault) (p : Progress)
    (argument : String) : Except UsageFault Progress :=
  if p.verbatim then g.positional unknown p argument
  else match argument.toList with
    | ['-', '-'] => .ok { p with verbatim := true }
    | '-' :: '-' :: rest =>
      let (name, value) := cutName rest
      match g.option? name with
      | some o => named p o value
      | none =>
        if g.takesAnything p then g.valueOrPosition unknown p argument
        else .error (.unexpected ("--" ++ name))
    | '-' :: c :: rest =>
      if g.takesAnything p && (c :: rest).any fun c => (g.shortOption? c).isNone then
        g.valueOrPosition unknown p argument
      else g.letters p (c :: rest)
    | _ => g.valueOrPosition unknown p argument

/-- The first two options given that exclude each other. -/
def exclusion? (g : Grammar) (given : Given) : Option UsageFault :=
  (given.findSome? fun e => do
    let o ← g.option? e.1
    let other ← g.options.find? fun o' => given.has o'.long &&
      (o.excludes.contains o'.long || o'.excludes.contains o.long)
    return .excluded o.label other.label)

/-- Whether all that is required is given. -/
def isComplete (g : Grammar) (given : Given) : Bool :=
  (g.options.all fun o => !o.required || given.has o.long) &&
    g.positions.all fun q => given.has q.name

/-- Reads the arguments of a command. -/
def read (g : Grammar) (arguments : List String) : Except UsageFault Given := do
  let p ← arguments.foldlM (g.step fun _ argument => .unexpected argument) {}
  let given := (← p.settle).given
  match g.exclusion? given with
  | some fault => throw fault
  | none => if g.isComplete given then return given else throw .incomplete

end Grammar

/-! ## Commands -/

/-- A program whose first position names a command with arguments of its own. Its options may stand
before that name and among the arguments after it. -/
structure Program where
  name : String
  options : List Opt
  commands : List (String × Grammar)

namespace Program

/-- The grammar of what stands before the command. -/
def front (program : Program) : Grammar := ⟨program.options, []⟩

/-- The grammar of a command with the options of the program. -/
def grammar? (program : Program) (name : String) : Option Grammar :=
  (program.commands.lookup name).map fun g => { g with options := g.options ++ program.options }

/-- What is wrong with an argument where a command is to be named. -/
def unknown (program : Program) (p : Progress) (argument : String) : UsageFault :=
  if p.verbatim && (argument = helpOption.long || (program.commands.lookup argument).isSome) then
    .unexpected argument
  else .unknownCommand argument

/-- The commands named after `help`. -/
def helpOn (program : Program) : List String → UsageFault
  | [] => .help
  | name :: rest =>
    if name = helpOption.long || (program.commands.lookup name).isSome then
      match rest with
      | [] => .help
      | other :: _ => .unknownCommand other
    else .unknownCommand name

/-- Reads the arguments from a point on: the command, what was given before it, and what was given
after it. -/
def readFrom (program : Program) (p : Progress) :
    List String → Except UsageFault (String × Given × Given)
  | [] => do
    let given := (← p.settle).given
    if given.isEmpty then throw .nothing
    throw (.noCommand program.name)
  | argument :: rest =>
    if !p.verbatim && !p.waiting && argument = helpOption.long then .error (program.helpOn rest)
    else match if p.verbatim || p.waiting then none else program.grammar? argument with
      | some g => do
        let before := (← p.settle).given
        return (argument, before, ← g.read rest)
      | none => do program.readFrom (← program.front.step program.unknown p argument) rest

def read (program : Program) (arguments : List String) :
    Except UsageFault (String × Given × Given) :=
  program.readFrom {} arguments

end Program

end ChainConformance.CommandLine
