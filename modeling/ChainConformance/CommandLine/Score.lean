import ChainConformance.CommandLine.Environment
import ChainConformance.Run.Summary

/-!
# Scores

How a summary is printed, how the results of a run are written and scored, and the command that
scores files of results against a manifest.
-/

namespace ChainConformance.CommandLine

variable {m : Type → Type} [Monad m]

open Job

/-- A list of indices in brackets. -/
def bracketed (indices : List Nat) : String :=
  "[" ++ Text.join ", " (indices.map Text.decimal) ++ "]"

def summaryLines (suite : String) (s : Summary) : List String :=
  [suite ++ ":",
   "  supported features:   " ++ Text.join ", " s.supported,
   "  unsupported features: " ++ Text.join ", " s.unsupported,
   "  passed:          " ++ Text.decimal s.passed.length,
   "  warnings:        " ++ Text.decimal s.warnings.length,
   "  skipped:         " ++ Text.decimal s.skipped.length,
   "  false positives: " ++ Text.decimal s.falsePositives.length,
   "  false negatives: " ++ Text.decimal s.falseNegatives.length] ++
    (if s.falsePositives.isEmpty then []
      else ["  accepted but must reject: " ++ bracketed s.falsePositives]) ++
    (if s.falseNegatives.isEmpty then []
      else ["  rejected but must accept: " ++ bracketed s.falseNegatives])

/-- Prints the score of a suite and gives the number of failed tests. -/
def printSummary (suite : String) (manifest : Manifest) (results : SuiteResults) (json : Bool) :
    Job m Nat := do
  let some expected := manifest.suites.get? suite
    | throw (.plain ("Suite '" ++ suite ++ "' not in manifest"))
  let summary ← lift (Summary.ofResults expected results)
  if json then printLine summary.toJson.pretty
  else (summaryLines suite summary).forM fun line => printLine line
  return summary.failureCount

/-- The exit code for a number of failed tests. -/
def exitCode (failures : Nat) : Nat := if failures = 0 then 0 else 1

/-! ## Files of results -/

/-- The file for the results of a suite. -/
def resultsPath (directory suite : String) : String :=
  FilePath.join directory (suite ++ "_results.json")

/-- The suite that a file of results is named for. -/
def suiteOfFile? (path : String) : Option String := do
  let name ← FilePath.stem? path
  let before ← Text.afterPrefix? "_results".toList.reverse name.toList.reverse
  return String.ofList before.reverse

/-- Writes the results of a suite and prints their score. -/
def recordResults (e : Environment m) (directory : String) (manifest : Manifest) (suite : String)
    (results : SuiteResults) : Job m Nat := do
  writeFile e (resultsPath directory suite) results.render
  printSummary suite manifest results false

/-- Records the results of all suites and gives the number of failed tests. -/
def recordAll (e : Environment m) (directory : String) (manifest : Manifest)
    (results : SortedMap String SuiteResults) : Job m Nat :=
  results.entries.foldlM (fun failures entry => do
    return failures + (← recordResults e directory manifest entry.1 entry.2)) 0

/-- A value read out of a file. -/
def parse {α : Type} (read : String → Except Error α) (contents : Bytes) : Except Error α :=
  match Json.text? contents with
  | some s => read s
  | none => .error .json

/-- Prints the score of a file of results, of the given suite or the one it is named for. -/
def scoreFile (e : Environment m) (manifest : Manifest) (suite : Option String) (json : Bool)
    (path : String) : Job m Nat := do
  let some name := suite.or (suiteOfFile? path)
    | throw (.plain ("Cannot infer suite from " ++ path ++ "; pass --suite"))
  let results ← check (.because ("Failed to parse results: " ++ path))
    (parse SuiteResults.read (← readFile e path))
  printSummary name manifest results json

def summarize (e : Environment m) (manifestPath : String) (suite : Option String)
    (paths : List String) (json : Bool) : Job m Nat := do
  let manifest ← check (.because "Failed to parse manifest")
    (parse Manifest.read (← readFile e manifestPath))
  paths.foldlM (fun failures path => do
    return failures + (← scoreFile e manifest suite json path)) 0

end ChainConformance.CommandLine
