import ChainConformance.Client.Shell.Surroundings

/-!
# Conditions

`test` says by its status whether a condition on texts, numbers or files holds.
-/

namespace ChainConformance.Shell

/-- A condition on one operand; none for an unknown one. -/
def unary? (files : Surroundings) (operator operand : String) : Option Bool :=
  let node := files.find operand
  match operator with
  | "-n" => some (operand ≠ "")
  | "-z" => some (operand = "")
  | "-e" | "-r" | "-w" => some node.toBool
  | "-f" => some (match node with | .ok (.file _) => operand ≠ "/dev/null" | _ => false)
  | "-d" | "-x" => some (match node with | .ok .directory => true | _ => false)
  | "-s" => some (match node with
    | .ok (.file contents) => !contents.isEmpty
    | .ok .directory => true
    | .error _ => false)
  | "-c" => some (operand = "/dev/null")
  | "-L" | "-h" | "-p" | "-S" | "-b" | "-t" | "-g" | "-u" | "-k" => some false
  | _ => none

def natural? (digits : List Char) : Option Nat :=
  if digits.isEmpty || digits.any (!Text.Numeral.isDigit ·) then none
  else some (digits.foldl (fun n c => 10 * n + Text.Numeral.digitValue c) 0)

/-- The number that a text denotes, blanks around it aside. -/
def integer? (s : String) : Option Int :=
  match (s.toList.dropWhile Char.isWhitespace).reverse.dropWhile Char.isWhitespace |>.reverse with
  | '-' :: digits => natural? digits |>.map fun n => -(n : Int)
  | '+' :: digits => natural? digits |>.map Int.ofNat
  | digits => natural? digits |>.map Int.ofNat

/-- What a comparison of two operands says; the outer option is none for an unknown one, the inner
one for operands that it cannot compare. -/
def binary? (left operator right : String) : Option (Option Bool) :=
  let numeric (compare : Int → Int → Bool) : Option Bool := do
    return compare (← integer? left) (← integer? right)
  match operator with
  | "=" | "==" => some (some (left = right))
  | "!=" => some (some (left ≠ right))
  | "<" => some (some (left < right))
  | ">" => some (some (right < left))
  | "-eq" => some (numeric fun x y => x = y)
  | "-ne" => some (numeric fun x y => x ≠ y)
  | "-lt" => some (numeric fun x y => x < y)
  | "-le" => some (numeric fun x y => x ≤ y)
  | "-gt" => some (numeric fun x y => y < x)
  | "-ge" => some (numeric fun x y => y ≤ x)
  | "-a" => some (some (left ≠ "" && right ≠ ""))
  | "-o" => some (some (left ≠ "" || right ≠ ""))
  | _ => none

/-- The operands before and after the first occurrence of an operator after the first place. -/
def splitAt? (operator : String) (arguments : List String) : Option (List String × List String) :=
  match arguments with
  | [] => none
  | first :: rest =>
    let before := rest.takeWhile (· ≠ operator)
    if before.length < rest.length then some (first :: before, rest.drop (before.length + 1))
    else none

/-- Whether a condition holds; none if it is malformed. The number of operands decides how they are
read. -/
def condition? (files : Surroundings) : (steps : Nat) → List String → Option Bool
  | 0, _ => none
  | _ + 1, [] => some false
  | _ + 1, [a] => some (a ≠ "")
  | _ + 1, ["!", a] => some (a = "")
  | _ + 1, [operator, a] => unary? files operator a
  | steps + 1, [a, operator, b] =>
    match binary? a operator b with
    | some result => result
    | none =>
      if a = "!" then (condition? files steps [operator, b]).map (!·)
      else if a = "(" ∧ b = ")" then some (operator ≠ "")
      else none
  | steps + 1, arguments =>
    match splitAt? "-o" arguments with
    | some (left, right) => do
      let l ← condition? files steps left
      let r ← condition? files steps right
      return l || r
    | none =>
      match splitAt? "-a" arguments with
      | some (left, right) => do
        let l ← condition? files steps left
        let r ← condition? files steps right
        return l && r
      | none =>
        match arguments with
        | "!" :: rest => (condition? files steps rest).map (!·)
        | "(" :: rest =>
          if rest.getLast? = some ")" then condition? files steps rest.dropLast else none
        | _ => none

def test : Utility := fun files _ arguments =>
  match condition? files (arguments.length + 1) arguments with
  | some true => { status := 0 }
  | some false => { status := 1 }
  | none => .failing 2 "test: bad condition"

def bracket : Utility := fun files input arguments =>
  if arguments.getLast? = some "]" then test files input arguments.dropLast
  else .failing 2 "[: missing ]"

end ChainConformance.Shell
