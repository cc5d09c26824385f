import ChainConformance.Client.Shell.Pattern
import ChainConformance.Client.Shell.Surroundings

/-!
# Searching files

`grep` selects the lines of files that match a pattern, or those that do not, and prints or counts
them. Its status says whether there were any.
-/

namespace ChainConformance.Shell

structure Search where
  flags : List Char := []
  pattern : Option String := none
  paths : List String := []

/-- Adds an argument to a search: the pattern first, then files. -/
def Search.addOperand (s : Search) (a : String) : Search :=
  if s.pattern.isNone then { s with pattern := some a } else { s with paths := s.paths ++ [a] }

def Search.read (s : Search) : List String → Search
  | [] => s
  | "--" :: rest => rest.foldl Search.addOperand s
  | "-e" :: pattern :: rest => { s with pattern := some pattern }.read rest
  | a :: rest =>
    match a.toList with
    | '-' :: c :: more => { s with flags := s.flags ++ c :: more }.read rest
    | _ => (s.addOperand a).read rest

/-- The lines of a file that a search selects, under their numbers. -/
def Search.select (s : Search) (patterns : List Pattern) (contents : Bytes) :
    List (Nat × List Char) :=
  let caseless := s.flags.contains 'i'
  let whole := s.flags.contains 'x'
  let patterns := patterns.map fun p =>
    let p := if caseless then p.lower else p
    if whole then { p with fromStart := true, toEnd := true } else p
  ((linesOf (textOf contents).toList).zipIdx 1).filterMap fun (line, number) =>
    let compared := if caseless then line.map Char.toLower else line
    let matched := patterns.any (·.matchesLine compared)
    if matched ≠ s.flags.contains 'v' then some (number, line) else none

def Search.render (s : Search) (path : String) (selected : List (Nat × List Char)) : String :=
  let named := 1 < s.paths.length && !s.flags.contains 'h' || s.flags.contains 'H'
  let front := if named then path ++ ":" else ""
  if s.flags.contains 'q' then ""
  else if s.flags.contains 'l' then (if selected.isEmpty then "" else path ++ "\n")
  else if s.flags.contains 'c' then front ++ Text.decimal selected.length ++ "\n"
  else
    let lines := selected.map fun (number, line) =>
      front ++ (if s.flags.contains 'n' then Text.decimal number ++ ":" else "") ++
        String.ofList line ++ "\n"
    lines.foldl (· ++ ·) ""

def grep : Utility := fun files input arguments =>
  let s := ({} : Search).read arguments
  let form : Pattern.Form := if s.flags.contains 'F' then .fixed
    else if s.flags.contains 'E' then .extended else .basic
  let known := "qcviFEGxnlhHsa".toList
  if s.flags.any fun c => !known.contains c then .failing 2 "grep: invalid option"
  else match s.pattern.bind (Pattern.read? form) with
    | none => .failing 2 "grep: no pattern"
    | some patterns =>
      let (report, found) := (if s.paths.isEmpty then ["-"] else s.paths).foldl
        (fun (state : Report × Bool) path =>
          let (report, found) := state
          match operand files input path with
          | .ok contents =>
            let selected := s.select patterns contents
            ({ report with output := report.output ++ Bytes.ofString (s.render path selected) },
              found || !selected.isEmpty)
          | .error fault =>
            let message := "grep: " ++ path ++ ": " ++ faultText fault ++ "\n"
            ({ report with
                status := 2
                errors := report.errors ++
                  (if s.flags.contains 's' then [] else Bytes.ofString message) }, found))
        ({ status := 0 }, false)
      if found && (s.flags.contains 'q' || report.status = 0) then { report with status := 0 }
      else if report.status = 0 then { report with status := 1 }
      else report

end ChainConformance.Shell
