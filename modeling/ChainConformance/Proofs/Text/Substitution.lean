import ChainConformance.Proofs.Text.Pieces
import Mathlib.Data.List.Induction

/-!
# Substituting all at once

`scan` goes through a text once, from left to right, puts the value of each marker that it meets in
the marker's place and copies everything else. Markers are names between braces. Proved here:

* `prefix_of_prefix_scan`: harmless values complete no marker;
* `replace_scan`: so one more marker can be replaced afterwards;
* `foldl_replace_eq_scan`: replacing one marker after the other is the same as one scan.
-/

namespace ChainConformance.Text

/-- A name between braces. -/
def marker (name : List Char) : List Char := '{' :: (name ++ ['}'])

theorem marker_ne_nil (name : List Char) : marker name ≠ [] := List.cons_ne_nil _ _

/-- One scan from left to right: markers give way to the values of their names, everything else is
copied. -/
def scan (values : List (List Char × List Char)) : List Char → List Char
  | [] => []
  | c :: rest =>
    match values.find? fun v => (marker v.1).isPrefixOf (c :: rest) with
    | some v => v.2 ++ scan values (rest.drop (v.1.length + 1))
    | none => c :: scan values rest
termination_by s => s.length
decreasing_by all_goals simp only [List.length_drop, List.length_cons]; omega

/-- A text without braces. -/
def Plain (s : List Char) : Prop := '{' ∉ s ∧ '}' ∉ s

theorem plain_append {s t : List Char} : Plain (s ++ t) ↔ Plain s ∧ Plain t := by
  simp only [Plain, List.mem_append, not_or, and_assoc, and_left_comm]

/-- The value of one name does no harm to another name in a text: it is no part of it, or is not put
in. -/
def Harmless (s : List Char) (v : List Char × List Char) (name : List Char) : Prop :=
  Plain v.2 ∧ (¬ v.2 <:+: name ∨ ¬ marker v.1 <:+: s)

theorem Harmless.mono {s t name part : List Char} {v : List Char × List Char}
    (h : Harmless s v name) (text : t <:+: s) (word : part <:+: name) : Harmless t v part :=
  ⟨h.1, h.2.imp (fun foreign inside => foreign (inside.trans word))
    fun absent inside => absent (inside.trans text)⟩

theorem rest_of_marker {name rest : List Char} {c : Char} (start : marker name <+: c :: rest) :
    c = '{' ∧ rest = name ++ ['}'] ++ rest.drop (name.length + 1) := by
  obtain ⟨same, later⟩ := List.cons_prefix_cons.mp start
  have whole := List.prefix_iff_eq_append.mp later
  rw [List.length_append, List.length_singleton] at whole
  exact ⟨same.symm, whole.symm⟩

section
variable {values : List (List Char × List Char)} {v : List Char × List Char}

theorem mem_of_find?_marker {s : List Char}
    (found : values.find? (fun v => (marker v.1).isPrefixOf s) = some v) :
    v ∈ values ∧ marker v.1 <+: s := by
  have start := List.find?_some found
  exact ⟨List.mem_of_find?_eq_some found, List.isPrefixOf_iff_prefix.mp start⟩

theorem find?_marker_eq_none_iff {s : List Char} :
    values.find? (fun v => (marker v.1).isPrefixOf s) = none ↔
      ∀ v ∈ values, ¬ marker v.1 <+: s := by
  simp [List.find?_eq_none]

/-- What a marker cannot start in is copied. -/
theorem scan_append_of_not_mem {front : List Char} (free : '{' ∉ front) (rest : List Char) :
    scan values (front ++ rest) = front ++ scan values rest := by
  induction front with
  | nil => rfl
  | cons c front ih =>
    obtain ⟨other, free⟩ := List.ne_and_not_mem_of_not_mem_cons free
    have nowhere :
        values.find? (fun v => (marker v.1).isPrefixOf (c :: (front ++ rest))) = none := by
      rw [find?_marker_eq_none_iff]
      exact fun v _ start => other (List.cons_prefix_cons.mp start).1
    rw [List.cons_append, scan, nowhere, ih free, List.cons_append]

/-- The rest of a marker that stands in front after a scan stood there before, if the values do no
harm to its name. -/
theorem prefix_of_prefix_scan {name s : List Char} (plain : Plain name)
    (harmless : ∀ v ∈ values, Harmless s v name) (h : name ++ ['}'] <+: scan values s) :
    name ++ ['}'] <+: s := by
  fun_induction scan values s generalizing name with
  | case1 => exact h
  | case2 c rest v found ih =>
    -- the value would have to be part of the name
    obtain ⟨member, start⟩ := mem_of_find?_marker found
    obtain ⟨⟨-, closed⟩, apart⟩ := harmless v member
    have foreign : ¬ v.2 <:+: name := apart.resolve_right (not_not_intro start.isInfix)
    rcases List.prefix_or_prefix_of_prefix h (List.prefix_append v.2 _) with inside | inside
    · exact absurd (inside.subset (List.mem_append_right name List.mem_cons_self)) closed
    · rcases List.prefix_concat_iff.mp inside with whole | part
      · exact absurd (whole ▸ List.mem_append_right name List.mem_cons_self) closed
      · exact absurd part.isInfix foreign
  | case3 c rest nowhere ih =>
    cases name with
    | nil =>
      have same := (List.cons_prefix_cons.mp h).1
      exact List.cons_prefix_cons.mpr ⟨same, List.nil_prefix⟩
    | cons n name =>
      obtain ⟨same, later⟩ := List.cons_prefix_cons.mp h
      have plain : Plain name := ⟨List.not_mem_of_not_mem_cons plain.1,
        List.not_mem_of_not_mem_cons plain.2⟩
      refine List.cons_prefix_cons.mpr ⟨same, ih plain (fun v member => ?_) later⟩
      exact (harmless v member).mono (List.suffix_cons c rest).isInfix
        (List.suffix_cons n name).isInfix

/-- One more marker can be replaced after a scan. -/
theorem replace_scan {name value s : List Char} (plain : Plain name)
    (harmless : ∀ v ∈ values, Harmless s v name) :
    replace (marker name) value (scan values s) = scan (values ++ [(name, value)]) s := by
  fun_induction scan (values ++ [(name, value)]) s with
  | case1 =>
    rw [scan]
    rfl
  | case2 c rest v found ih =>
    have later : ∀ w ∈ values, Harmless (rest.drop (v.1.length + 1)) w name := fun w member =>
      (harmless w member).mono ((List.drop_suffix _ rest).trans (List.suffix_cons c rest)).isInfix
        (List.infix_refl name)
    rw [List.find?_append] at found
    cases earlier : values.find? fun v => (marker v.1).isPrefixOf (c :: rest) with
    | some w =>
      rw [earlier, Option.some_or] at found
      cases found
      obtain ⟨member, -⟩ := mem_of_find?_marker earlier
      rw [scan, earlier, ← ih later]
      exact replace_append_of_not_mem (harmless v member).1.1 _
    | none =>
      rw [earlier, Option.none_or] at found
      obtain ⟨member, start⟩ := mem_of_find?_marker found
      cases List.mem_singleton.mp member
      obtain ⟨rfl, whole⟩ := rest_of_marker start
      have inside : '{' ∉ name ++ ['}'] := by simp [plain.1]
      have kept : scan values ('{' :: rest) =
          marker name ++ scan values (rest.drop (name.length + 1)) := by
        rw [scan, earlier]
        calc '{' :: scan values rest
            = '{' :: scan values (name ++ ['}'] ++ rest.drop (name.length + 1)) := by rw [← whole]
          _ = '{' :: (name ++ ['}'] ++ scan values (rest.drop (name.length + 1))) := by
            rw [scan_append_of_not_mem inside]
      rw [kept, replace_append (marker_ne_nil name), ih later]
  | case3 c rest nowhere ih =>
    rw [find?_marker_eq_none_iff, List.forall_mem_append, List.forall_mem_singleton] at nowhere
    obtain ⟨earlier, here⟩ := nowhere
    have later : ∀ v ∈ values, Harmless rest v name := fun v member =>
      (harmless v member).mono (List.suffix_cons c rest).isInfix (List.infix_refl name)
    rw [scan, find?_marker_eq_none_iff.mpr earlier, replace_cons, ih later]
    intro start
    obtain ⟨same, after⟩ := List.cons_prefix_cons.mp start
    exact here (List.cons_prefix_cons.mpr ⟨same, prefix_of_prefix_scan plain later after⟩)

theorem scan_nil (s : List Char) : scan [] s = s := by
  induction s with
  | nil => rw [scan]
  | cons c s ih => rw [scan, List.find?_nil, ih]

/-- Replacing one marker after the other is the same as one scan, if no value does harm to the names
that come after its own. -/
theorem foldl_replace_eq_scan {s : List Char} (plain : ∀ v ∈ values, Plain v.1)
    (harmless : values.Pairwise fun v w => Harmless s v w.1) :
    values.foldl (fun text v => replace (marker v.1) v.2 text) s = scan values s := by
  induction values using List.reverseRecOn with
  | nil => exact (scan_nil s).symm
  | append_singleton values v ih =>
    obtain ⟨earlier, last⟩ := List.forall_mem_append.mp plain
    obtain ⟨among, -, before⟩ := List.pairwise_append.mp harmless
    rw [List.foldl_append, ih earlier among]
    exact replace_scan (last v (List.mem_singleton_self v))
      fun w member => before w member v (List.mem_singleton_self v)

end

end ChainConformance.Text
