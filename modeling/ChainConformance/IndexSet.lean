import ChainConformance.Text.Blank
import ChainConformance.Text.Numeral
import ChainConformance.Text.Pieces
import ChainConformance.Text.Quoted

/-!
# Sets of test indices

A set is written as numbers and inclusive ranges separated by commas, such as `0,3-5,10`, and keeps
its intervals as they were written. `IndexSet.read` and `IndexSet.render` go between the text and
the set; `IndexSet.below` lists the members under a limit.
-/

namespace ChainConformance

/-- The indices from `first` to `last`, both included. -/
structure Interval where
  first : UInt64
  last : UInt64
  first_le_last : first ≤ last
  deriving DecidableEq, Repr

/-- A set of indices, as the intervals it was written with. -/
structure IndexSet where
  intervals : List Interval
  deriving DecidableEq, Repr

namespace Interval

def contains (r : Interval) (n : Nat) : Bool := r.first.toNat ≤ n && n ≤ r.last.toNat

def render (r : Interval) : String :=
  if r.first = r.last then Text.decimal r.first.toNat
  else Text.decimal r.first.toNat ++ "-" ++ Text.decimal r.last.toNat

end Interval

namespace IndexSet

/-- Why a text is no set of indices; `part` is the piece between commas at fault. -/
inductive Fault where
  | numeral (part : String) (fault : Text.Numeral.Fault)
  | reversed (part : String)
  deriving DecidableEq, Repr

def Fault.message : Fault → String
  | .numeral part fault => "invalid index range " ++ Text.quoted part ++ ": " ++ fault.message
  | .reversed part => "index range " ++ Text.quoted part ++ " ends before it starts"

/-- The set without intervals. -/
def none : IndexSet := ⟨[]⟩

/-- Whether the set has no intervals. -/
def isEmpty (s : IndexSet) : Bool := s.intervals.isEmpty

def contains (s : IndexSet) (n : Nat) : Bool := s.intervals.any (·.contains n)

/-- The members below `limit`, ascending. -/
def below (s : IndexSet) (limit : Nat) : List Nat := (List.range limit).filter s.contains

def render (s : IndexSet) : String := Text.join "," (s.intervals.map Interval.render)

/-- The index that a number within `part` denotes. -/
def readIndex (part number : List Char) : Except Fault UInt64 :=
  match Text.Numeral.read Text.indexLimit (Text.trim number) with
  | .ok n => .ok (UInt64.ofNat n)
  | .error fault => .error (.numeral (String.ofList part) fault)

/-- The interval that a piece between commas denotes. -/
def readInterval (part : List Char) : Except Fault Interval :=
  match Text.cut '-' part with
  | Option.none => do
    let n ← readIndex part part
    return ⟨n, n, Nat.le_refl _⟩
  | some (start, stop) => do
    let first ← readIndex part start
    let last ← readIndex part stop
    if h : first ≤ last then return ⟨first, last, h⟩ else throw (.reversed (String.ofList part))

/-- The set that a text denotes. -/
def read (s : String) : Except Fault IndexSet :=
  (mk ·) <$> (Text.splitOn ',' s.toList).mapM readInterval

end IndexSet

end ChainConformance
