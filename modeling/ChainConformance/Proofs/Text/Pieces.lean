import ChainConformance.Text.Blank
import ChainConformance.Text.Pieces

/-!
# Pieces of texts

What stands before and after a separator is cut on its own: `splitOn_append_cons`. So pieces that
end in a separator each are what cutting at the separator gives, with an empty piece after the last
one: `splitOn_flatMap`. In general cutting and joining are inverse to each other:
`separated_splitOn`, `splitOn_intercalate`.
A prefix is found exactly if the text starts with it, one character is replaced wherever it stands,
and blanks go from the ends of a text up to its first and its last visible character.
-/

namespace ChainConformance.Text

/-! ## Cutting -/

section
variable {sep : Char}

theorem exists_splitOn (sep : Char) (s : List Char) :
    ∃ piece pieces, splitOn sep s = piece :: pieces := by
  fun_cases splitOn sep s
  · exact ⟨_, _, rfl⟩
  · exact ⟨_, _, rfl⟩
  · exact ⟨_, _, rfl⟩
  · exact ⟨_, _, rfl⟩

/-- What stands before and after a separator is cut on its own. -/
theorem splitOn_append_cons (s rest : List Char) :
    splitOn sep (s ++ sep :: rest) = splitOn sep s ++ splitOn sep rest := by
  induction s with
  | nil => simp [splitOn]
  | cons c s ih =>
    rw [List.cons_append, splitOn, splitOn, ih]
    by_cases same : c = sep
    · rw [if_pos same, if_pos same, List.cons_append]
    · rw [if_neg same, if_neg same]
      obtain ⟨piece, pieces, cut⟩ := exists_splitOn sep s
      rw [cut]
      rfl

theorem splitOn_of_not_mem {s : List Char} (free : sep ∉ s) : splitOn sep s = [s] := by
  induction s with
  | nil => rfl
  | cons c s ih =>
    obtain ⟨other, free⟩ := List.ne_and_not_mem_of_not_mem_cons free
    rw [splitOn, if_neg other.symm, ih free]

theorem splitOn_append {piece : List Char} (free : sep ∉ piece) (rest : List Char) :
    splitOn sep (piece ++ sep :: rest) = piece :: splitOn sep rest := by
  rw [splitOn_append_cons, splitOn_of_not_mem free, List.singleton_append]

theorem splitOn_flatMap {pieces : List (List Char)} (free : ∀ piece ∈ pieces, sep ∉ piece) :
    splitOn sep (pieces.flatMap (· ++ [sep])) = pieces ++ [[]] := by
  induction pieces with
  | nil => rfl
  | cons piece pieces ih =>
    obtain ⟨first, others⟩ := List.forall_mem_cons.mp free
    rw [List.flatMap_cons, List.append_assoc, List.singleton_append, splitOn_append first,
      ih others, List.cons_append]

/-- The text consists of the pieces, of which there is one at least, with a separator between any
two of them and no other one. -/
structure Separated (sep : Char) (pieces : List (List Char)) (s : List Char) : Prop where
  some : pieces ≠ []
  free : ∀ piece ∈ pieces, sep ∉ piece
  joined : intercalate [sep] pieces = s

theorem separated_splitOn (sep : Char) (s : List Char) : Separated sep (splitOn sep s) s := by
  induction s with
  | nil => exact ⟨List.cons_ne_nil _ _, by simp [splitOn], rfl⟩
  | cons c s ih =>
    obtain ⟨piece, pieces, cut⟩ := exists_splitOn sep s
    rw [cut] at ih
    obtain ⟨first, others⟩ := List.forall_mem_cons.mp ih.free
    rw [splitOn, cut]
    by_cases same : c = sep
    · rw [if_pos same]
      refine ⟨List.cons_ne_nil _ _, List.forall_mem_cons.mpr ⟨List.not_mem_nil, ih.free⟩, ?_⟩
      rw [intercalate, ih.joined, same, List.nil_append, List.singleton_append]
      exact ih.some
    · rw [if_neg same]
      have added : sep ∉ c :: piece := List.not_mem_cons_of_ne_of_not_mem (Ne.symm same) first
      refine ⟨List.cons_ne_nil _ _, List.forall_mem_cons.mpr ⟨added, others⟩, ?_⟩
      rw [← ih.joined]
      cases pieces <;> rfl

/-- Cutting undoes joining. -/
theorem splitOn_intercalate {pieces : List (List Char)} (some : pieces ≠ [])
    (free : ∀ piece ∈ pieces, sep ∉ piece) : splitOn sep (intercalate [sep] pieces) = pieces := by
  induction pieces with
  | nil => exact absurd rfl some
  | cons piece pieces ih =>
    obtain ⟨first, others⟩ := List.forall_mem_cons.mp free
    cases pieces with
    | nil => exact splitOn_of_not_mem first
    | cons second pieces =>
      rw [intercalate, List.append_assoc, List.singleton_append, splitOn_append first,
        ih (List.cons_ne_nil _ _) others]
      exact List.cons_ne_nil _ _

theorem cut_of_not_mem {s : List Char} (free : sep ∉ s) : cut sep s = none := by
  induction s with
  | nil => rfl
  | cons c s ih =>
    obtain ⟨other, free⟩ := List.ne_and_not_mem_of_not_mem_cons free
    rw [cut, if_neg other.symm, ih free]
    rfl

theorem cut_append {before : List Char} (free : sep ∉ before) (after : List Char) :
    cut sep (before ++ sep :: after) = some (before, after) := by
  induction before with
  | nil => exact if_pos rfl
  | cons c before ih =>
    obtain ⟨other, free⟩ := List.ne_and_not_mem_of_not_mem_cons free
    rw [List.cons_append, cut, if_neg other.symm, ih free]
    rfl

/-- A text is put together again from what stands before and after the separator. -/
theorem eq_of_cut {s before after : List Char} (h : cut sep s = some (before, after)) :
    s = before ++ sep :: after := by
  induction s generalizing before with
  | nil => cases h
  | cons c s ih =>
    rw [cut] at h
    split at h
    · next same =>
      cases h
      rw [same, List.nil_append]
    · obtain ⟨⟨front, rest⟩, found, e⟩ := Option.map_eq_some_iff.mp h
      cases e
      rw [ih found, List.cons_append]

end

/-! ## Prefixes -/

theorem afterPrefix?_append (front s : List Char) : afterPrefix? front (front ++ s) = some s := by
  induction front with
  | nil => cases s <;> rfl
  | cons p front ih => rw [List.cons_append, afterPrefix?, if_pos rfl, ih]

theorem afterPrefix?_of_not_prefix {front s : List Char} (other : ¬ front <+: s) :
    afterPrefix? front s = none := by
  fun_induction afterPrefix? front s with
  | case1 => exact absurd List.nil_prefix other
  | case2 => rfl
  | case3 front c s ih => exact ih fun h => other (List.cons_prefix_cons.mpr ⟨rfl, h⟩)
  | case4 => rfl

/-! ## Replacing and trimming -/

section
variable {what value : List Char}

theorem replaceFrom_append (front rest : List Char) :
    replaceFrom what value front.length (front ++ rest) = replace what value rest := by
  induction front with
  | nil => rfl
  | cons c front ih => exact ih

/-- The text that is looked for gives way where it stands. -/
theorem replace_append (some : what ≠ []) (rest : List Char) :
    replace what value (what ++ rest) = value ++ replace what value rest := by
  obtain ⟨c, front, rfl⟩ := List.exists_cons_of_ne_nil some
  have found : (c :: front).isPrefixOf (c :: (front ++ rest)) = true :=
    List.isPrefixOf_iff_prefix.mpr (List.prefix_append (c :: front) rest)
  rw [List.cons_append, replace, replaceFrom, if_pos found, List.length_cons, Nat.add_sub_cancel,
    replaceFrom_append]

theorem replace_cons {c : Char} {rest : List Char} (other : ¬ what <+: c :: rest) :
    replace what value (c :: rest) = c :: replace what value rest := by
  rw [replace, replaceFrom, if_neg (mt List.isPrefixOf_iff_prefix.mp other), replace]

/-- What the text cannot start in stays as it is. -/
theorem replace_append_of_not_mem {c : Char} {front : List Char} (free : c ∉ front)
    (rest : List Char) :
    replace (c :: what) value (front ++ rest) = front ++ replace (c :: what) value rest := by
  induction front with
  | nil => rfl
  | cons x front ih =>
    obtain ⟨other, free⟩ := List.ne_and_not_mem_of_not_mem_cons free
    rw [List.cons_append, replace_cons, ih free, List.cons_append]
    exact fun start => other (List.cons_prefix_cons.mp start).1

end

theorem replace_singleton (c : Char) (value s : List Char) :
    replace [c] value s = s.flatMap fun x => if x = c then value else [x] := by
  unfold replace
  induction s with
  | nil => rfl
  | cons x rest ih =>
    rw [replaceFrom, List.flatMap_cons, List.length_singleton, Nat.sub_self, ih]
    by_cases same : x = c
    · simp [same]
    · simp [same, Ne.symm same]

theorem trimEnd_append {s blanks : List Char} (visible : ∀ c ∈ s, isBlank c = false)
    (blank : ∀ c ∈ blanks, isBlank c = true) : trimEnd (s ++ blanks) = s := by
  have kept : s.reverse.dropWhile isBlank = s.reverse := by
    cases e : s.reverse with
    | nil => rfl
    | cons c rest =>
      have member : c ∈ s := List.mem_reverse.mp (e ▸ List.mem_cons_self ..)
      rw [List.dropWhile_cons_of_neg (by simp [visible c member])]
  rw [trimEnd, List.reverse_append,
    List.dropWhile_append_of_pos fun c h => blank c (List.mem_reverse.mp h), kept,
    List.reverse_reverse]

/-- Blanks around a visible text go. -/
theorem trim_append {before s after : List Char} (some : s ≠ [])
    (visible : ∀ c ∈ s, isBlank c = false) (front : ∀ c ∈ before, isBlank c = true)
    (back : ∀ c ∈ after, isBlank c = true) : trim (before ++ s ++ after) = s := by
  have kept : (s ++ after).dropWhile isBlank = s ++ after := by
    obtain ⟨c, rest, rfl⟩ := List.exists_cons_of_ne_nil some
    rw [List.cons_append, List.dropWhile_cons_of_neg (by simp [visible c List.mem_cons_self])]
  rw [trim, List.append_assoc, List.dropWhile_append_of_pos front, kept,
    trimEnd_append visible back]

/-- Nothing but blanks goes. -/
theorem exists_blanks_trim (s : List Char) : ∃ before after, (∀ c ∈ before, isBlank c = true) ∧
    (∀ c ∈ after, isBlank c = true) ∧ s = before ++ trim s ++ after := by
  have blank {c : Char} {t : List Char} (member : c ∈ t.takeWhile isBlank) : isBlank c = true :=
    List.all_eq_true.mp List.all_takeWhile c member
  have back (t : List Char) : t = trimEnd t ++ (t.reverse.takeWhile isBlank).reverse := by
    rw [trimEnd, ← List.reverse_append, List.takeWhile_append_dropWhile, List.reverse_reverse]
  refine ⟨s.takeWhile isBlank, ((s.dropWhile isBlank).reverse.takeWhile isBlank).reverse,
    fun c => blank, fun c member => blank (List.mem_reverse.mp member), ?_⟩
  rw [List.append_assoc, trim, ← back, List.takeWhile_append_dropWhile]

end ChainConformance.Text
