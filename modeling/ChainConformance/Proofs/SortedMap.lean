import ChainConformance.SortedMap

/-!
# Looking up what was put into a map

`get?_insert_self` and `get?_insert_of_ne`: the value of a key is the one that was put in last.
`isSome_get?_ofList`: the keys of a map are those of the list that it was made of.
`get?_ofList_eq_some_iff`: so are the entries, if no key is given twice.
`ofList_entries`: a map is made of its own entries.
-/

namespace ChainConformance.SortedMap

variable {κ α : Type} [Ord κ] [DecidableEq κ]

theorem isSome_get?_iff (m : SortedMap κ α) (k : κ) : (m.get? k).isSome = true ↔ k ∈ m.keys := by
  simp [get?, keys]

theorem mem_values_of_get? {m : SortedMap κ α} {k : κ} {v : α} (h : m.get? k = some v) :
    v ∈ m.values := by
  obtain ⟨e, found, rfl⟩ := Option.map_eq_some_iff.mp h
  exact List.mem_map_of_mem (List.mem_of_find?_eq_some found)

variable [Std.LawfulEqOrd κ]

theorem find?_insertEntry_self (k : κ) (v : α) (entries : List (κ × α)) :
    (insertEntry k v entries).find? (·.1 = k) = some (k, v) := by
  induction entries with
  | nil => simp [insertEntry]
  | cons e rest ih =>
    rw [insertEntry]
    split
    · simp
    · simp
    · next greater =>
      have other : e.1 ≠ k := by
        rintro rfl
        simp at greater
      simp [other, ih]

theorem find?_insertEntry_of_ne {k other : κ} (ne : other ≠ k) (v : α)
    (entries : List (κ × α)) :
    (insertEntry k v entries).find? (·.1 = other) = entries.find? (·.1 = other) := by
  induction entries with
  | nil => simp [insertEntry, ne.symm]
  | cons e rest ih =>
    rw [insertEntry]
    split
    · simp [ne.symm]
    · next equal =>
      rw [Std.LawfulEqCmp.compare_eq_iff_eq] at equal
      simp [← equal, ne.symm]
    · simp only [List.find?_cons, ih]

variable [Std.TransOrd κ]

theorem get?_insert_self (m : SortedMap κ α) (k : κ) (v : α) : (m.insert k v).get? k = some v := by
  simp [get?, insert, find?_insertEntry_self]

theorem get?_insert_of_ne (m : SortedMap κ α) {k other : κ} (ne : other ≠ k) (v : α) :
    (m.insert k v).get? other = m.get? other := by
  rw [get?, insert, find?_insertEntry_of_ne ne, get?]

theorem isSome_get?_insert (m : SortedMap κ α) (k other : κ) (v : α) :
    ((m.insert k v).get? other).isSome = true ↔ k = other ∨ (m.get? other).isSome = true := by
  by_cases same : k = other
  · subst same
    simp [get?_insert_self]
  · rw [get?_insert_of_ne m (Ne.symm same)]
    simp [same]

theorem isSome_get?_ofList (entries : List (κ × α)) (k : κ) :
    ((ofList entries).get? k).isSome = true ↔ k ∈ entries.map (·.1) := by
  have folded : ∀ m : SortedMap κ α,
      ((entries.foldl (fun m e => m.insert e.1 e.2) m).get? k).isSome = true ↔
        k ∈ entries.map (·.1) ∨ (m.get? k).isSome = true := by
    induction entries with
    | nil => simp
    | cons e rest ih =>
      intro m
      rw [List.foldl_cons, ih, isSome_get?_insert, List.map_cons, List.mem_cons, or_assoc,
        or_left_comm, eq_comm]
  exact (folded empty).trans (or_iff_left (by simp [empty, get?]))

/-- If no key is given twice, each has the value that it was given with. -/
theorem get?_ofList_eq_some_iff {entries : List (κ × α)} (distinct : (entries.map (·.1)).Nodup)
    {k : κ} {v : α} : (ofList entries).get? k = some v ↔ (k, v) ∈ entries := by
  have folded : ∀ m : SortedMap κ α,
      (entries.foldl (fun m e => m.insert e.1 e.2) m).get? k = some v ↔
        (k, v) ∈ entries ∨ k ∉ entries.map (·.1) ∧ m.get? k = some v := by
    induction entries with
    | nil => simp
    | cons e rest ih =>
      obtain ⟨fresh, others⟩ := List.nodup_cons.mp distinct
      intro m
      rw [List.foldl_cons, ih others, List.mem_cons, List.map_cons, List.mem_cons, not_or]
      by_cases same : k = e.1
      · subst same
        have absent : (e.1, v) ∉ rest := fun member =>
          fresh (List.mem_map.mpr ⟨_, member, rfl⟩)
        simp [fresh, absent, get?_insert_self, Prod.ext_iff, eq_comm]
      · simp [get?_insert_of_ne m same, Prod.ext_iff, same]
  exact (folded empty).trans (or_iff_left (by simp [empty, get?]))

/-! ## In order -/

omit [DecidableEq κ] [Std.LawfulEqOrd κ] in
/-- A key that is greater than all others is put at the end. -/
theorem insertEntry_of_last {k : κ} (v : α) {entries : List (κ × α)}
    (last : ∀ e ∈ entries, compare e.1 k = .lt) :
    insertEntry k v entries = entries ++ [(k, v)] := by
  induction entries with
  | nil => rfl
  | cons e rest ih =>
    obtain ⟨first, others⟩ := List.forall_mem_cons.mp last
    have greater : compare k e.1 = .gt := Std.OrientedCmp.gt_of_lt first
    rw [insertEntry, greater]
    simp only [ih others, List.cons_append]

omit [DecidableEq κ] in
theorem ofList_entries (m : SortedMap κ α) : ofList m.entries = m := by
  -- the entries are put in one after the other, each after those that are there
  have folded : ∀ (entries : List (κ × α)) (before : SortedMap κ α),
      ((before.entries ++ entries).Pairwise fun a b => compare a.1 b.1 = .lt) →
        (entries.foldl (fun m e => m.insert e.1 e.2) before).entries =
          before.entries ++ entries := by
    intro entries
    induction entries with
    | nil => simp
    | cons e rest ih =>
      intro before rising
      have last : ∀ d ∈ before.entries, compare d.1 e.1 = .lt := fun d member =>
        (List.pairwise_append.mp rising).2.2 d member e List.mem_cons_self
      have placed : (before.insert e.1 e.2).entries = before.entries ++ [e] :=
        insertEntry_of_last e.2 last
      rw [List.foldl_cons, ih _ (by rw [placed]; simpa using rising), placed, List.append_assoc,
        List.singleton_append]
  have whole := folded m.entries empty m.rising
  rw [ofList]
  cases m
  rw [SortedMap.mk.injEq]
  exact whole

end ChainConformance.SortedMap
