import ChainConformance.Client.Shell.Surroundings

/-!
# Programs that pass on files

`cat` passes files on whole, `head` and `tail` a part of each, and `wc` counts what they hold.
-/

namespace ChainConformance.Shell

def cat : Utility := fun files input arguments =>
  overOperands "cat" 1 id files input (arguments.filter fun a => a ≠ "--" ∧ a ≠ "-u")

/-- The operands of `head` and `tail`, with the amount and whether it counts bytes. -/
structure Extent where
  amount : String := "10"
  bytes : Bool := false
  paths : List String := []

def readExtent (e : Extent) : List String → Option Extent
  | [] => some e
  | "--" :: rest => some { e with paths := e.paths ++ rest }
  | "-n" :: amount :: rest => readExtent { e with amount, bytes := false } rest
  | "-c" :: amount :: rest => readExtent { e with amount, bytes := true } rest
  | argument :: rest =>
    match argument.toList with
    | '-' :: 'n' :: amount => readExtent { e with amount := String.ofList amount } rest
    | '-' :: 'c' :: amount =>
      readExtent { e with amount := String.ofList amount, bytes := true } rest
    | '-' :: c :: amount =>
      if Text.Numeral.isDigit c then
        readExtent { e with amount := String.ofList (c :: amount) } rest
      else none
    | _ => readExtent { e with paths := e.paths ++ [argument] } rest

/-- Bytes cut into lines, each with its line end. -/
def rawLines : Bytes → List Bytes
  | [] => []
  | x :: rest =>
    if x = 10 then [x] :: rawLines rest
    else match rawLines rest with
      | [] => [[x]]
      | line :: lines => (x :: line) :: lines

def headOrTail (name : String) (cut : {α : Type} → (amount : String) → List α → Option (List α)) :
    Utility := fun files input arguments =>
  match readExtent {} arguments with
  | none => .failing 1 (name ++ ": invalid option")
  | some e =>
    match cut e.amount ([] : List Unit) with
    | none => .failing 1 (name ++ ": invalid number: '" ++ e.amount ++ "'")
    | some _ =>
      overOperands name 1 (fun contents =>
        if e.bytes then (cut e.amount contents).getD []
        else ((cut e.amount (rawLines contents)).getD []).flatten) files input e.paths

def head : Utility := headOrTail "head" fun amount xs =>
  match amount.toList with
  | '-' :: n => (String.ofList n).toNat?.map fun n => xs.take (xs.length - n)
  | n => (String.ofList n).toNat?.map fun n => xs.take n

def tail : Utility := headOrTail "tail" fun amount xs =>
  match amount.toList with
  | '+' :: n => (String.ofList n).toNat?.map fun n => xs.drop (n - 1)
  | '-' :: n => (String.ofList n).toNat?.map fun n => xs.drop (xs.length - n)
  | n => (String.ofList n).toNat?.map fun n => xs.drop (xs.length - n)

def countWords (s : List Char) : Nat :=
  ((Text.splitOn ' ' (s.map fun c => if c.isWhitespace then ' ' else c)).filter (!·.isEmpty)).length

def wc : Utility := fun files input arguments =>
  let (options, paths) := arguments.partition fun a => a.startsWith "-" && a ≠ "-"
  let flags := options.flatMap fun a => a.toList.drop 1
  let shown := if flags.isEmpty then ['l', 'w', 'c'] else flags
  if flags.any fun c => !("lwcm".toList.contains c) then .failing 1 "wc: invalid option"
  else
    let counts : Bytes → List Nat := fun b =>
      (if shown.contains 'l' then [b.count 10] else []) ++
      (if shown.contains 'w' then [countWords (textOf b).toList] else []) ++
      (if shown.contains 'm' then [(textOf b).length] else []) ++
      (if shown.contains 'c' then [b.length] else [])
    (if paths.isEmpty then ["-"] else paths).foldl (fun report path =>
      match operand files input path with
      | .ok contents =>
        let line := Text.join " " ((counts contents).map Text.decimal) ++
          (if paths.isEmpty then "\n" else " " ++ path ++ "\n")
        { report with output := report.output ++ Bytes.ofString line }
      | .error fault =>
        { report with
          status := 1
          errors := report.errors ++
            Bytes.ofString ("wc: " ++ path ++ ": " ++ faultText fault ++ "\n") })
      { status := 0 }

end ChainConformance.Shell
