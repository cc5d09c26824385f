import ChainConformance.Proofs.TrustGraph.Reachability

/-!
# The search on a single path

`TrustGraph.search` gives every call a path of its own. Here all calls work on one: a call puts a
name at its end, lets the next call go on from there, and takes the name off again when that call
comes back without the target. How many calls may be open at a time is limited, and a search that
would need more is told apart from one that fails. Proved here:

* `visit_of_le`: what comes back under a limit comes back in the same way under each higher one;
* `visit_eq`: one call for each free node and one more are enough, and then the search comes back
  with the path of `searchWithin`, or without one and with the path that it was given;
* `visit_exact`: both from any path of distinct names, with the walks that decide between them.

That a failing call leaves the path as it was is what makes the loop over the edges try each of
them from the same path, so the loop is compared with `List.findSome?` at a fixed path.
-/

namespace ChainConformance.TrustGraph

/-- What a call comes back with: whether it has found the target, and the path as it leaves it. -/
structure Visit where
  found : Bool
  path : List String
  deriving DecidableEq, Repr

/-- The loop of a call over the edges that are left to try. The path is the one that the calls
before have left. -/
def visitEdges (broken : List Edge) (current : String) (call : List String → Option Visit) :
    List Edge → List String → Option Visit
  | [], path => some ⟨false, path⟩
  | e :: rest, path =>
    if e.source = current ∧ e ∉ broken ∧ e.destination ∉ path then
      match call (path ++ [e.destination]) with
      | none => none
      | some ⟨true, left⟩ => some ⟨true, left⟩
      | some ⟨false, left⟩ => visitEdges broken current call rest left.dropLast
    else visitEdges broken current call rest path

/-- Looks for `dst` from the end of the path with at most `levels` calls open at a time, this one
among them; `none` if they are not enough. -/
def visit (g : TrustGraph) (broken : List Edge) (dst : String) :
    (levels : Nat) → (path : List String) → Option Visit
  | 0, _ => none
  | levels + 1, path =>
    match path.getLast? with
    | none => some ⟨false, path⟩
    | some current =>
      if current = dst then some ⟨true, path⟩
      else visitEdges broken current (visit g broken dst levels) g.edges path

/-- The path that is found, or the one that was given. -/
def Visit.settle (path : List String) : Option (List String) → Visit
  | some longer => ⟨true, longer⟩
  | none => ⟨false, path⟩

@[simp] theorem Visit.found_settle (path : List String) (result : Option (List String)) :
    (Visit.settle path result).found = result.isSome := by
  cases result <;> rfl

theorem Visit.result_settle (path : List String) (result : Option (List String)) :
    (if (Visit.settle path result).found then some (Visit.settle path result).path else none) =
      result := by
  cases result <;> rfl

variable {g : TrustGraph} {broken : List Edge} {dst : String}

/-! ## The limit -/

/-- The loop comes back in the same way if the calls do. -/
theorem visitEdges_of_imp {call call' : List String → Option Visit} {current : String}
    (imp : ∀ path v, call path = some v → call' path = some v) {edges : List Edge}
    {path : List String} {v : Visit} (h : visitEdges broken current call edges path = some v) :
    visitEdges broken current call' edges path = some v := by
  induction edges generalizing path with
  | nil => exact h
  | cons e rest ih =>
    rw [visitEdges] at h ⊢
    split at h
    · next allowed =>
      rw [if_pos allowed]
      cases back : call (path ++ [e.destination]) with
      | none => simp [back] at h
      | some inner =>
        rw [imp _ _ back]
        obtain ⟨found, left⟩ := inner
        cases found with
        | true => simpa [back] using h
        | false => exact ih (by simpa [back] using h)
    · next skipped =>
      rw [if_neg skipped]
      exact ih h

/-- The limit changes nothing but whether the search comes back. -/
theorem visit_of_le {levels more : Nat} {path : List String} {v : Visit} (le : levels ≤ more)
    (h : g.visit broken dst levels path = some v) : g.visit broken dst more path = some v := by
  induction levels generalizing more path v with
  | zero => cases h
  | succ levels ih =>
    obtain ⟨more, rfl⟩ := Nat.exists_eq_add_of_le' (Nat.zero_lt_of_lt le)
    have onward (path : List String) (v : Visit) :
        g.visit broken dst levels path = some v → g.visit broken dst more path = some v :=
      ih (Nat.le_of_succ_le_succ le)
    rw [visit] at h ⊢
    cases ends : path.getLast? with
    | none => simpa [ends] using h
    | some current =>
      simp only [ends] at h ⊢
      split at h
      · next arrived => rwa [if_pos arrived]
      · next away =>
        rw [if_neg away]
        exact visitEdges_of_imp onward h

/-- Under all limits under which the search comes back, it does so in the same way. -/
theorem visit_unique {levels levels' : Nat} {path : List String} {v v' : Visit}
    (h : g.visit broken dst levels path = some v)
    (h' : g.visit broken dst levels' path = some v') : v = v' := by
  have above := visit_of_le (Nat.le_max_left levels levels') h
  have above' := visit_of_le (Nat.le_max_right levels levels') h'
  exact Option.some.inj (above.symm.trans above')

/-! ## What comes back -/

/-- If each call comes back with what it finds or with the path that it was given, the loop tries
all edges from the same path. -/
theorem visitEdges_eq {call : List String → Option Visit} {current : String} {path : List String}
    {onward : Edge → Option (List String)} {edges : List Edge}
    (settled : ∀ e ∈ edges, e.destination ∉ path →
      call (path ++ [e.destination]) = some (.settle (path ++ [e.destination]) (onward e))) :
    visitEdges broken current call edges path =
      some (.settle path (edges.findSome? fun e =>
        if e.source = current ∧ e ∉ broken ∧ e.destination ∉ path then onward e else none)) := by
  induction edges with
  | nil => rfl
  | cons e rest ih =>
    have others := ih fun e' member => settled e' (List.mem_cons_of_mem e member)
    rw [visitEdges, List.findSome?_cons]
    split
    · next allowed =>
      rw [settled e List.mem_cons_self allowed.2.2]
      cases onward e with
      | some longer => rfl
      | none =>
        -- the name that was put on the path is the one that is taken off
        simp only [Visit.settle, List.dropLast_concat]
        exact others
    · exact others

/-- With a call for each free node and one more, the search comes back. -/
theorem visit_eq {levels : Nat} {path : List String} {current : String}
    (ends : path.getLast? = some current) (enough : g.freeNodes path < levels) :
    g.visit broken dst levels path =
      some (.settle path (g.searchWithin broken dst levels path current)) := by
  induction levels generalizing path current with
  | zero => exact absurd enough (Nat.not_lt_zero _)
  | succ levels ih =>
    rw [visit, ends, searchWithin]
    dsimp only
    split
    · rfl
    · refine visitEdges_eq fun e declared new => ih List.getLast?_concat ?_
      have fewer : g.freeNodes (path ++ [e.destination]) < g.freeNodes path :=
        freeNodes_append_lt (destination_mem_nodes declared) new
      omega

/-- On a chain, one call fewer is not enough. -/
example : (ofPairs "CHAIN" [("S", "A"), ("A", "T")]).visit [] "T" 2 ["S"] = none := by
  decide +kernel

theorem search_concat {others : List String} {current : String} :
    g.search broken dst (others ++ [current]) = g.searchWithin broken dst
      (g.freeNodes (others ++ [current]) + 1) (others ++ [current]) current := by
  rw [search, List.getLast?_concat]

theorem visit_eq_search {others : List String} {current : String} :
    g.visit broken dst (g.freeNodes (others ++ [current]) + 1) (others ++ [current]) =
      some (.settle (others ++ [current]) (g.search broken dst (others ++ [current]))) := by
  rw [search_concat]
  exact visit_eq List.getLast?_concat (Nat.lt_succ_self _)

/-- A walk that enters no other name of the path need not come back to its end either. -/
theorem walkOff_concat_iff {others : List String} {current : String} :
    g.WalkOff broken (others ++ [current]) current dst ↔ g.WalkOff broken others current dst :=
  ⟨fun walk => walk.mono fun _ member => List.mem_append_left _ member, WalkOff.leaving⟩

/-- A path that is found has the given one in front, repeats no name and ends in the target. -/
theorem extended_of_searchWithin {depth : Nat} {others p : List String} {current : String}
    (distinct : (others ++ [current]).Nodup)
    (h : g.searchWithin broken dst depth (others ++ [current]) current = some p) :
    (others ++ [current]) <+: p ∧ p.Nodup ∧ p.getLast? = some dst := by
  obtain ⟨added, rfl, -, once, new, last⟩ := searchWithin_extends h
  refine ⟨List.prefix_append _ added, ?_, ?_⟩
  · exact List.nodup_append.mpr ⟨distinct, once, fun a old b add same => new b add (same ▸ old)⟩
  · rw [List.append_assoc, List.singleton_append, List.getLast?_append_cons]
    exact last

/-! ## Any path of distinct names -/

/-- What the search comes back with from a path that ends in `current`, with `others` before it. The
names need not be nodes of the graph. -/
structure VisitsExactly (g : TrustGraph) (broken : List Edge) (dst : String)
    (others : List String) (current : String) (v : Visit) : Prop where
  /-- The calls come back, with at most one open for each free node and one more. -/
  returns : ∀ levels, g.freeNodes (others ++ [current]) + 1 ≤ levels →
    g.visit broken dst levels (others ++ [current]) = some v
  /-- No limit makes them come back in another way. -/
  alone : ∀ levels v', g.visit broken dst levels (others ++ [current]) = some v' → v' = v
  decides : v.found = true ↔ current = dst ∨ g.WalkOff broken others current dst
  extended : v.found = true →
    (others ++ [current]) <+: v.path ∧ v.path.Nodup ∧ v.path.getLast? = some dst
  restored : v.found = false → v.path = others ++ [current]
  runs : g.search broken dst (others ++ [current]) = if v.found then some v.path else none

/-- From the end of any path of distinct names, the search comes back without ever having more
calls open than there are nodes off the path, and one. It has found the target if and only if a
walk along sound edges that enters none of the other names leads there. Then it has extended the
path to the target, still without repeated names; else the path is what it was. -/
theorem visit_exact (g : TrustGraph) (broken : List Edge) (dst : String) {others : List String}
    {current : String} (distinct : (others ++ [current]).Nodup) :
    ∃ v, g.VisitsExactly broken dst others current v := by
  refine ⟨.settle (others ++ [current]) (g.search broken dst (others ++ [current])),
    fun levels more => visit_of_le more visit_eq_search,
    fun levels v' h => visit_unique h visit_eq_search, ?decides, ?extended, ?restored,
    (Visit.result_settle _ _).symm⟩
  case decides =>
    rw [Visit.found_settle, search_concat, searchWithin_isSome (Nat.lt_succ_self _),
      walkOff_concat_iff]
    exact (or_iff_right_of_imp fun arrived => arrived ▸ .here current).symm
  case extended =>
    rw [Visit.found_settle, search_concat]
    intro found
    obtain ⟨p, found⟩ := Option.isSome_iff_exists.mp found
    rw [found]
    exact extended_of_searchWithin distinct found
  case restored =>
    rw [Visit.found_settle, Option.isSome_eq_false_iff, Option.isNone_iff_eq_none]
    intro failed
    rw [failed]
    rfl

/-- From `A` the search first goes to `B`, from where all leads back to the path. -/
def snared : TrustGraph :=
  .ofPairs "SNARED" [("A", "A"), ("A", "B"), ("B", "A"), ("B", "S"), ("S", "T"), ("A", "C"),
    ("C", "U")]

/-- The name `X` stands on the path but not in the graph. `T` is led to by `S` alone, which the path
has come through. -/
theorem visit_exact_of_snared :
    ["X", "S", "A"].Nodup ∧ snared.freeNodes ["X", "S", "A"] = 4 ∧
      snared.visit [] "U" 5 ["X", "S", "A"] = some ⟨true, ["X", "S", "A", "C", "U"]⟩ ∧
      snared.visit [] "T" 5 ["X", "S", "A"] = some ⟨false, ["X", "S", "A"]⟩ ∧
      snared.WalkOff [] ["X", "S"] "A" "U" ∧ ¬ snared.WalkOff [] ["X", "S"] "A" "T" := by
  have distinct : (["X", "S"] ++ ["A"]).Nodup := by decide
  have free : snared.freeNodes ["X", "S", "A"] = 4 := by decide +kernel
  obtain ⟨v, there⟩ := visit_exact snared [] "U" distinct
  obtain ⟨v', nowhere⟩ := visit_exact snared [] "T" distinct
  have found : snared.visit [] "U" 5 ["X", "S", "A"] =
      some ⟨true, ["X", "S", "A", "C", "U"]⟩ := by decide +kernel
  have failed : snared.visit [] "T" 5 ["X", "S", "A"] = some ⟨false, ["X", "S", "A"]⟩ := by
    decide +kernel
  cases there.alone 5 _ found
  cases nowhere.alone 5 _ failed
  have walk : snared.WalkOff [] ["X", "S"] "A" "U" :=
    (there.decides.mp rfl).resolve_left (by decide)
  have noWalk : ¬ snared.WalkOff [] ["X", "S"] "A" "T" := fun walk =>
    absurd (nowhere.decides.mpr (.inr walk)) Bool.false_ne_true
  exact ⟨distinct, free, found, failed, walk, noWalk⟩

end ChainConformance.TrustGraph
