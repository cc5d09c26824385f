import ChainConformance.Text.Blank
import ChainConformance.Text.Numeral
import ChainConformance.Text.Pieces

/-!
# Durations

A duration is written as amounts with units, such as `1h 30m` or `1.5s`; a number alone counts
seconds. `Duration.read` reads that form, `Duration.render` prints a duration in its largest unit.
-/

namespace ChainConformance

structure Duration where
  nanoseconds : Nat
  deriving DecidableEq, Repr

namespace Duration

/-- The nanoseconds of a second. -/
def second : Nat := 1000000000

/-- The nanoseconds of a millisecond. -/
def millisecond : Nat := 1000000

/-- The nanoseconds of a microsecond. -/
def microsecond : Nat := 1000

def ofSeconds (n : Nat) : Duration := ⟨n * second⟩

def ofMilliseconds (n : Nat) : Duration := ⟨n * millisecond⟩

/-! ## Printing -/

/-- A number of `unit`s with the fraction that is left over, of as many digits as `unit` has. -/
def renderIn (unit digits : Nat) (name : String) (n : Nat) : String :=
  let fraction := n % unit
  let padded := (Nat.toDigits 10 (fraction + Nat.pow 10 digits)).drop 1
  let shown := (padded.reverse.dropWhile (· = '0')).reverse
  Text.decimal (n / unit) ++ (if shown = [] then "" else "." ++ String.ofList shown) ++ name

def render (d : Duration) : String :=
  if second ≤ d.nanoseconds then renderIn second 9 "s" d.nanoseconds
  else if millisecond ≤ d.nanoseconds then renderIn millisecond 6 "ms" d.nanoseconds
  else if microsecond ≤ d.nanoseconds then renderIn microsecond 3 "µs" d.nanoseconds
  else Text.decimal d.nanoseconds ++ "ns"

/-! ## Units -/

/-- A unit: how many seconds or, for the small ones, nanoseconds it has. -/
inductive Scale where
  | seconds (n : Nat)
  | nanoseconds (n : Nat)
  deriving DecidableEq, Repr

/-- The units by their names. -/
def scales : List (List String × Scale) :=
  [(["nanos", "nsec", "ns"], .nanoseconds 1),
   (["usec", "us", "µs"], .nanoseconds 1000),
   (["millis", "msec", "ms"], .nanoseconds 1000000),
   (["seconds", "second", "secs", "sec", "s"], .seconds 1),
   (["minutes", "minute", "min", "mins", "m"], .seconds 60),
   (["hours", "hour", "hr", "hrs", "h"], .seconds 3600),
   (["days", "day", "d"], .seconds 86400),
   (["weeks", "week", "wk", "wks", "w"], .seconds 604800),
   (["months", "month", "M"], .seconds 2630016),
   (["years", "year", "yr", "yrs", "y"], .seconds 31557600)]

def scale? (name : String) : Option Scale := (scales.find? (·.1.contains name)).map (·.2)

/-! ## Reading -/

/-- One more than the largest number of seconds, and the limit of every number on the way. -/
def limit : Nat := UInt64.size

/-- A number, if it is below the limit. -/
def bounded (n : Nat) : Option Nat := if n < limit then some n else none

/-- A numerator over a power of ten. -/
structure Fraction where
  numerator : Nat
  denominator : Nat

def isUnitLetter (c : Char) : Bool := c.isAlpha || c = 'µ'

/-- The digits after the point, with what follows them; blanks between them do not count. -/
def readFraction (f : Fraction) : List Char → Option (Fraction × List Char)
  | [] => if f.denominator = 1 then none else some (f, [])
  | c :: rest =>
    if Text.Numeral.isDigit c then do
      let denominator ← bounded (f.denominator * 10)
      let numerator ← bounded (f.numerator * 10 + Text.Numeral.digitValue c)
      readFraction ⟨numerator, denominator⟩ rest
    else if Text.isBlank c then readFraction f rest
    else if isUnitLetter c && f.denominator ≠ 1 then some (f, c :: rest)
    else none

/-- The digits of an amount and its fraction, with what follows them. -/
def readAmount (n : Nat) : List Char → Option (Nat × Option Fraction × List Char)
  | [] => some (n, none, [])
  | c :: rest =>
    if Text.Numeral.isDigit c then do
      readAmount (← bounded (n * 10 + Text.Numeral.digitValue c)) rest
    else if Text.isBlank c then readAmount n rest
    else if isUnitLetter c then some (n, none, c :: rest)
    else if c = '.' then do
      let (f, rest) ← readFraction ⟨0, 1⟩ rest
      return (n, some f, rest)
    else none

/-- A part of a duration added to what came before. -/
def add (d : Duration) (seconds nanoseconds : Nat) : Option Duration := do
  let _ ← bounded (d.nanoseconds % second + nanoseconds)
  let sum := d.nanoseconds + seconds * second + nanoseconds
  let _ ← bounded (sum / second)
  return ⟨sum⟩

/-- The duration with an amount of a unit added. The fraction of a unit up to minutes is cut to
nanoseconds, that of a larger one to seconds. -/
def addAmount (d : Duration) (scale : Scale) (n : Nat) (f : Option Fraction) : Option Duration := do
  let d ← match scale with
    | .seconds s => d.add (← bounded (n * s)) 0
    | .nanoseconds s => d.add 0 (← bounded (n * s))
  match f with
  | none => return d
  | some f =>
    match scale with
    | .nanoseconds s => d.add 0 ((← bounded (f.numerator * s)) / f.denominator)
    | .seconds s =>
      if s ≤ 60 then d.add 0 ((← bounded (f.numerator * (s * second))) / f.denominator)
      else d.add ((← bounded (f.numerator * s)) / f.denominator) 0

/-- Whether a unit ends here. -/
def endsUnit (c : Char) : Bool := Text.Numeral.isDigit c || Text.isBlank c

/-- The amounts of a text, added to a duration; `steps` bounds their number. -/
def readAmounts (d : Duration) : (steps : Nat) → List Char → Option Duration
  | 0, _ => none
  | steps + 1, s =>
    match s.dropWhile Text.isBlank with
    | [] => some d
    | c :: rest => do
      guard (Text.Numeral.isDigit c)
      let (n, f, rest) ← readAmount (Text.Numeral.digitValue c) rest
      let name := rest.takeWhile (! endsUnit ·)
      let scale ← scale? (String.ofList name)
      readAmounts (← d.addAmount scale n f) steps (rest.drop name.length)

/-- Why a text is no duration. -/
inductive Fault where
  | value
  | text (s : String)
  deriving DecidableEq, Repr

def Fault.message : Fault → String
  | .value => "Invalid duration value"
  | .text s => "Invalid duration: '" ++ s ++ "'"

/-- The duration that a text denotes. -/
def read (s : String) : Except Fault Duration :=
  if s.toList.all Text.Numeral.isDigit then
    match Text.Numeral.read limit s.toList with
    | .ok n => .ok (ofSeconds n)
    | .error _ => .error .value
  else if s.toList.all Text.isBlank then .error (.text s)
  else
    match readAmounts ⟨0⟩ (s.length + 1) s.toList with
    | some d => .ok d
    | none => .error (.text s)

end Duration

end ChainConformance
