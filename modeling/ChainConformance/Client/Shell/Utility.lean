import ChainConformance.Client.Shell.Condition
import ChainConformance.Client.Shell.Filter
import ChainConformance.Client.Shell.Printing
import ChainConformance.Client.Shell.Search

/-!
# Utilities

The programs that client commands are made of, by their names.
-/

namespace ChainConformance.Shell

/-- The time that an argument of `sleep` stands for: a decimal number with an optional unit. -/
def sleepTime? (s : String) : Option Nat := do
  let number := s.toList.takeWhile fun c => Text.Numeral.isDigit c || c = '.'
  let unit ← match s.toList.drop number.length with
    | [] | ['s'] => some 1
    | ['m'] => some 60
    | ['h'] => some 3600
    | ['d'] => some 86400
    | _ => none
  let (whole, fraction) := (Text.cut '.' number).getD (number, [])
  guard (!(whole ++ fraction).isEmpty && !fraction.contains '.')
  let second := Duration.second
  let value (digits : List Char) : Nat :=
    digits.foldl (fun n c => 10 * n + Text.Numeral.digitValue c) 0
  return (value whole * second + value fraction * second / Nat.pow 10 fraction.length) * unit

def sleep : Utility := fun _ _ arguments =>
  if arguments.isEmpty then .failing 1 "sleep: missing operand"
  else match arguments.mapM sleepTime? with
    | some times => { status := 0, elapsed := ⟨times.foldl (· + ·) 0⟩ }
    | none => .failing 1 "sleep: invalid time interval"

def utilities : List (String × Utility) :=
  [("true", fun _ _ _ => { status := 0 }), ("false", fun _ _ _ => { status := 1 }),
   ("echo", echo), ("printf", printf), ("cat", cat), ("head", head), ("tail", tail), ("wc", wc),
   ("grep", grep), ("test", test), ("[", bracket), ("sleep", sleep)]

end ChainConformance.Shell
