import ChainConformance.Files.Tree
import ChainConformance.Proofs.Outcome

/-!
# Reading what was written

A file that is written is put where a path leads. It never takes the place of a directory, so all
paths lead where they led before. Proved here:

* `find_eq_ok_iff`, `read_eq_ok_iff`, `write_eq_ok_iff`: when paths lead to something, and when
  files are read and written;
* `walk_put_file`: where paths lead after a file is put into the tree;
* `read_of_write`, `read_of_write_same`, `read_of_write_apart`: what is read after a file is
  written, there and elsewhere.
-/

namespace ChainConformance.FileTree

variable {t t' : FileTree} {path : String} {contents : Bytes}

theorem locate_eq_ok_iff {place : List String} : t.locate path = .ok place ↔
    path ≠ "" ∧ t.walk [] (FilePath.steps path) = .ok place := by
  rw [locate]
  split
  · next empty => simp [empty]
  · next named => simp [named]

/-- What a path leads to is no file if only a directory can have the path. -/
theorem find_eq_ok_iff {node : FileNode} : t.find path = .ok node ↔
    path ≠ "" ∧ ∃ place, t.walk [] (FilePath.steps path) = .ok place ∧ t.get? place = some node ∧
      (endsInSlash path = true → node = .directory) := by
  rw [find, bind_eq_ok_iff]
  constructor
  · rintro ⟨place, located, found⟩
    obtain ⟨named, walked⟩ := locate_eq_ok_iff.mp located
    refine ⟨named, place, walked, ?_⟩
    cases here : t.get? place with
    | none => simp [here] at found
    | some other =>
      cases other with
      | directory =>
        simp only [here] at found
        cases found
        exact ⟨rfl, fun _ => rfl⟩
      | file c =>
        simp only [here] at found
        split at found
        · cases found
        · next plain =>
          cases found
          exact ⟨rfl, fun slash => absurd slash plain⟩
  · rintro ⟨named, place, walked, here, plain⟩
    refine ⟨place, locate_eq_ok_iff.mpr ⟨named, walked⟩, ?_⟩
    cases node with
    | directory => rw [here]; rfl
    | file c =>
      have free : ¬ endsInSlash path = true := fun slash => nomatch plain slash
      rw [here]
      simp only [if_neg free]
      rfl

theorem exists?_eq_true_iff : t.exists? path = true ↔ ∃ node, t.find path = .ok node := by
  rw [exists?]
  cases t.find path <;> simp [Except.toBool]

theorem read_eq_ok_iff : t.read path = .ok contents ↔
    path ≠ "" ∧ endsInSlash path = false ∧ ∃ place, t.walk [] (FilePath.steps path) = .ok place ∧
      t.get? place = some (.file contents) := by
  rw [read, bind_eq_ok_iff]
  constructor
  · rintro ⟨node, found, file⟩
    obtain ⟨named, place, walked, here, plain⟩ := find_eq_ok_iff.mp found
    cases node with
    | directory => cases file
    | file c =>
      cases file
      refine ⟨named, ?_, place, walked, here⟩
      rw [← Bool.not_eq_true]
      exact fun slash => nomatch plain slash
  · rintro ⟨named, plain, place, walked, here⟩
    refine ⟨.file contents, find_eq_ok_iff.mpr ⟨named, place, walked, here, ?_⟩, rfl⟩
    rw [plain]
    nofun

theorem write_eq_ok_iff : t.write path contents = .ok t' ↔
    path ≠ "" ∧ endsInSlash path = false ∧ ∃ place, t.walk [] (FilePath.steps path) = .ok place ∧
      t.get? place ≠ some .directory ∧ t' = t.put place (.file contents) := by
  rw [write, bind_eq_ok_iff]
  constructor
  · rintro ⟨place, located, done⟩
    obtain ⟨named, walked⟩ := locate_eq_ok_iff.mp located
    split at done
    · cases done
    · next allowed =>
      cases done
      simp only [Bool.or_eq_true, decide_eq_true_eq, not_or, Bool.not_eq_true] at allowed
      exact ⟨named, allowed.1, place, walked, allowed.2, rfl⟩
  · rintro ⟨named, plain, place, walked, free, rfl⟩
    refine ⟨place, locate_eq_ok_iff.mpr ⟨named, walked⟩, ?_⟩
    rw [plain, decide_eq_false free]
    rfl

theorem exists?_of_read (read : t.read path = .ok contents) : t.exists? path = true := by
  obtain ⟨node, found, -⟩ := bind_eq_ok_iff.mp read
  exact exists?_eq_true_iff.mpr ⟨node, found⟩

/-- Whether a file can be written does not depend on what is written. -/
theorem exists_write_iff (contents contents' : Bytes) :
    (∃ after, t.write path contents = .ok after) ↔ ∃ after, t.write path contents' = .ok after := by
  simp only [write_eq_ok_iff, exists_and_left]
  constructor
  all_goals
    rintro ⟨named, plain, after, place, walked, free, -⟩
    exact ⟨named, plain, _, place, walked, free, rfl⟩

/-- The working directory is taken. -/
theorem ne_nil_of_free {place : List String} (free : t.get? place ≠ some .directory) :
    place ≠ [] := by
  rintro rfl
  exact free rfl

/-! ## Where paths lead -/

theorem walk_cons_eq_ok_iff {start ended rest : List String} {step : String} :
    t.walk start (step :: rest) = .ok ended ↔ t.get? start = some .directory ∧
      t.walk (next start step) rest = .ok ended := by
  rw [walk]
  cases t.get? start with
  | none => simp
  | some node => cases node <;> simp

/-- A file that takes the place of no directory changes the way of no path. -/
theorem walk_put_file {place : List String} (free : t.get? place ≠ some .directory)
    {start ended steps : List String} (walked : t.walk start steps = .ok ended) :
    (t.put place (.file contents)).walk start steps = .ok ended := by
  induction steps generalizing start with
  | nil => exact walked
  | cons step rest ih =>
    obtain ⟨here, onward⟩ := walk_cons_eq_ok_iff.mp walked
    have other : start ≠ place := by
      rintro rfl
      exact free here
    apply walk_cons_eq_ok_iff.mpr
    exact ⟨(get?_put_of_ne t _ other).trans here, ih onward⟩

theorem read_of_write (written : t.write path contents = .ok t') :
    t'.read path = .ok contents := by
  obtain ⟨named, plain, place, walked, free, rfl⟩ := write_eq_ok_iff.mp written
  exact read_eq_ok_iff.mpr
    ⟨named, plain, place, walk_put_file free walked, get?_put_self t _ (ne_nil_of_free free)⟩

/-- Another path to the same place leads to the same contents. -/
theorem read_of_write_same {other : String} {contents' : Bytes}
    (written : t.write path contents = .ok t') (read : t.read other = .ok contents')
    (same : t.walk [] (FilePath.steps other) = t.walk [] (FilePath.steps path)) :
    t'.read other = .ok contents := by
  obtain ⟨-, -, place, walked, free, rfl⟩ := write_eq_ok_iff.mp written
  obtain ⟨named, plain, place', walked', here⟩ := read_eq_ok_iff.mp read
  cases walked'.symm.trans (same.trans walked)
  exact read_eq_ok_iff.mpr
    ⟨named, plain, place, walk_put_file free walked', get?_put_self t _ (ne_nil_of_free free)⟩

/-- Files at other places are read as before. -/
theorem read_of_write_apart {other : String} {contents' : Bytes}
    (written : t.write path contents = .ok t') (read : t.read other = .ok contents')
    (apart : t.walk [] (FilePath.steps other) ≠ t.walk [] (FilePath.steps path)) :
    t'.read other = .ok contents' := by
  obtain ⟨-, -, place, walked, free, rfl⟩ := write_eq_ok_iff.mp written
  obtain ⟨named, plain, place', walked', here⟩ := read_eq_ok_iff.mp read
  have ne : place' ≠ place := by
    rintro rfl
    exact apart (walked'.trans walked.symm)
  refine read_eq_ok_iff.mpr ⟨named, plain, place', walk_put_file free walked', ?_⟩
  rw [get?_put_of_ne t _ ne, here]

end ChainConformance.FileTree
