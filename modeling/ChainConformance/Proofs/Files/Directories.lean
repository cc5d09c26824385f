import ChainConformance.Proofs.Files.Tree

/-!
# Making directories

Making directories adds to a tree and takes nothing away, whether it succeeds or is stopped by a
file. Proved here:

* `AddsDirectories`, `addsDirectories_makeFrom`: what is there stays as it is;
* `makeFrom_again`: what was made once need not be made again, and what stopped it once stops it
  again;
* `read_of_addsDirectories`: files are read as before;
* `above_of_walk`, `walk_of_up_free`: what is above a place that can be reached, and which paths
  lead there again.
-/

namespace ChainConformance.FileTree

variable {t t' t'' : FileTree}

/-! ## Directories on top of a tree -/

/-- The second tree has all nodes of the first one, and at most directories besides. -/
structure AddsDirectories (t t' : FileTree) : Prop where
  kept : ∀ {place node}, t.get? place = some node → t'.get? place = some node
  files : ∀ {place contents}, t'.get? place = some (.file contents) →
    t.get? place = some (.file contents)

theorem AddsDirectories.refl (t : FileTree) : AddsDirectories t t := ⟨id, id⟩

theorem AddsDirectories.trans (first : AddsDirectories t t') (second : AddsDirectories t' t'') :
    AddsDirectories t t'' :=
  ⟨fun here => second.kept (first.kept here), fun file => first.files (second.files file)⟩

theorem addsDirectories_put {place : List String} (free : t.get? place = none) :
    AddsDirectories t (t.put place .directory) where
  kept := by
    intro other node here
    have ne : other ≠ place := by
      rintro rfl
      cases free.symm.trans here
    rwa [get?_put_of_ne t _ ne]
  files := by
    intro other contents file
    have inside : place ≠ [] := ne_nil_of_free (t := t) (by simp [free])
    by_cases same : other = place
    · rw [same, get?_put_self t _ inside] at file
      cases file
    · rwa [get?_put_of_ne t _ same] at file

/-- Each directory that is missing is one step, and the steps add up. -/
theorem addsDirectories_makeFrom (t : FileTree) (made : Bool) (place names : List String) :
    AddsDirectories t (t.makeFrom made place names).2 := by
  induction names generalizing t made place with
  | nil => exact .refl t
  | cons name rest ih =>
    rw [makeFrom]
    cases here : t.get? (next place name) with
    | none => exact (addsDirectories_put here).trans (ih ..)
    | some node =>
      cases node with
      | directory => exact ih ..
      | file c => exact .refl t

/-! ## Making directories again -/

theorem makeFrom_of_directory {made : Bool} {place rest : List String} {name : String}
    (here : t.get? (next place name) = some .directory) :
    t.makeFrom made place (name :: rest) = t.makeFrom made (next place name) rest := by
  simp only [makeFrom, here]

theorem makeFrom_of_missing {made : Bool} {place rest : List String} {name : String}
    (here : t.get? (next place name) = none) : t.makeFrom made place (name :: rest) =
      (t.put (next place name) .directory).makeFrom true (next place name) rest := by
  simp only [makeFrom, here]

/-- A second attempt changes nothing, and succeeds exactly if the first one did. -/
theorem makeFrom_again (t : FileTree) (made made' : Bool) (place names : List String) :
    ∃ outcome, (t.makeFrom made place names).2.makeFrom made' place names =
        (outcome, (t.makeFrom made place names).2) ∧
      (outcome = .ok () ↔ (t.makeFrom made place names).1 = .ok ()) := by
  induction names generalizing t made place with
  | nil => exact ⟨.ok (), rfl, Iff.rfl⟩
  | cons name rest ih =>
    -- a directory on the way is there again, so the second attempt goes on behind it
    have behind : ∀ (u : FileTree) (made : Bool), u.get? (next place name) = some .directory →
        ∃ outcome, (u.makeFrom made (next place name) rest).2.makeFrom made' place (name :: rest) =
            (outcome, (u.makeFrom made (next place name) rest).2) ∧
          (outcome = .ok () ↔ (u.makeFrom made (next place name) rest).1 = .ok ()) := by
      intro u made here
      have still := (addsDirectories_makeFrom u made (next place name) rest).kept here
      rw [makeFrom_of_directory still]
      exact ih ..
    cases here : t.get? (next place name) with
    | none =>
      have inside : next place name ≠ [] := ne_nil_of_free (t := t) (by simp [here])
      rw [makeFrom_of_missing here]
      exact behind _ true (get?_put_self t _ inside)
    | some node =>
      cases node with
      | directory =>
        rw [makeFrom_of_directory here]
        exact behind t made here
      | file c =>
        have stopped (m : Bool) : t.makeFrom m place (name :: rest) =
            (.error (if m || rest.isEmpty then .exists else .notADirectory), t) := by
          simp only [makeFrom, here]
        rw [stopped]
        exact ⟨_, stopped made', by simp⟩

/-! ## Where paths lead -/

theorem walk_of_kept (adds : AddsDirectories t t') {start ended steps : List String}
    (walked : t.walk start steps = .ok ended) : t'.walk start steps = .ok ended := by
  induction steps generalizing start with
  | nil => exact walked
  | cons step rest ih =>
    obtain ⟨here, onward⟩ := walk_cons_eq_ok_iff.mp walked
    exact walk_cons_eq_ok_iff.mpr ⟨adds.kept here, ih onward⟩

/-- Files can be read where directories were added, and are the same. -/
theorem read_of_addsDirectories (adds : AddsDirectories t t') {path : String} {contents : Bytes}
    (read : t.read path = .ok contents) : t'.read path = .ok contents := by
  obtain ⟨named, plain, place, walked, here⟩ := read_eq_ok_iff.mp read
  exact read_eq_ok_iff.mpr ⟨named, plain, place, walk_of_kept adds walked, adds.kept here⟩

/-- The place that a path names, if all directories on its way are there. -/
def placeOf (path : String) : List String := (FilePath.steps path).foldl next []

/-- Where steps lead if all of them can be taken. -/
theorem eq_foldl_of_walk {start ended steps : List String}
    (walked : t.walk start steps = .ok ended) : ended = steps.foldl next start := by
  induction steps generalizing start with
  | nil => exact (Except.ok.inj walked).symm
  | cons step rest ih => exact ih (walk_cons_eq_ok_iff.mp walked).2

/-- All places above a place are directories. -/
def Above (t : FileTree) (place : List String) : Prop :=
  ∀ front, front <+: place → front ≠ place → t.get? front = some .directory

theorem above_next {place : List String} (above : t.Above place)
    (here : t.get? place = some .directory) (step : String) : t.Above (next place step) := by
  rw [next]
  split
  · exact above
  · split
    · intro front before ne
      refine above front (before.trans (List.dropLast_prefix place)) ?_
      rintro rfl
      exact ne (before.eq_of_length (Nat.le_antisymm before.length_le
        (List.dropLast_prefix front).length_le))
    · intro front before ne
      rcases List.prefix_concat_iff.mp before with rfl | before
      · exact absurd rfl ne
      · by_cases same : front = place
        · rwa [same]
        · exact above front before same

theorem above_of_walk {start ended steps : List String} (above : t.Above start)
    (walked : t.walk start steps = .ok ended) : t.Above ended := by
  induction steps generalizing start with
  | nil =>
    cases walked
    exact above
  | cons step rest ih =>
    obtain ⟨here, onward⟩ := walk_cons_eq_ok_iff.mp walked
    exact ih (above_next above here step) onward

theorem above_root (t : FileTree) : t.Above [] :=
  fun _ before ne => absurd (List.prefix_nil.mp before) ne

/-- Steps that lead nowhere upwards only lead to what is below. -/
theorem prefix_of_walk {start ended steps : List String} (down : ".." ∉ steps)
    (walked : t.walk start steps = .ok ended) : start <+: ended := by
  induction steps generalizing start with
  | nil =>
    cases walked
    exact List.prefix_rfl
  | cons step rest ih =>
    obtain ⟨other, down⟩ := List.ne_and_not_mem_of_not_mem_cons down
    have below : start <+: next start step := by
      rw [next]
      split
      · exact List.prefix_rfl
      · rw [if_neg other.symm]
        exact List.prefix_append ..
    exact below.trans (ih down (walk_cons_eq_ok_iff.mp walked).2)

/-- A path that leads nowhere upwards leads to a place whenever the places above it are
directories: no other directory is on its way. -/
theorem walk_of_up_free {start ended steps : List String} (down : ".." ∉ steps)
    (walked : t'.walk start steps = .ok ended) (free : t'.get? ended ≠ some .directory)
    (above : t.Above ended) : t.walk start steps = .ok ended := by
  induction steps generalizing start with
  | nil => exact walked
  | cons step rest ih =>
    obtain ⟨here, onward⟩ := walk_cons_eq_ok_iff.mp walked
    have ne : start ≠ ended := by
      rintro rfl
      exact free here
    have less := above start (prefix_of_walk down walked) ne
    exact walk_cons_eq_ok_iff.mpr ⟨less, ih (List.not_mem_of_not_mem_cons down) onward⟩

end ChainConformance.FileTree
