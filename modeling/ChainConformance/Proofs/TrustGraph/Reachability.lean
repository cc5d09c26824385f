import ChainConformance.Proofs.TrustGraph.Nodes
import ChainConformance.TrustGraph.Search
import Mathlib.Data.List.Chain
import Mathlib.Logic.Relation

/-!
# The search for a path decides reachability

`g.Sound broken a b` says that the graph declares an edge from `a` to `b` which is not broken.
Proved here, for every graph with cycles, repeated edges and edges from a node to itself:

* `searchWithin_extends`: what the search returns extends the path it started from by sound edges,
  through nodes that are new and distinct, and ends in the target;
* `searchWithin_isSome`: with more depth than there are nodes off the path, the search succeeds if
  and only if a walk off the path leads from its end to the target;
* `path?_decides_reachability`: both for the search from a single node, where every walk counts.

The search keeps no list of nodes that it has given up. What makes it complete is that a walk which
comes back to its first node can be cut short there (`WalkOff.leaving`).
-/

namespace ChainConformance.TrustGraph

/-- An edge from `a` to `b` is declared and not broken. -/
def Sound (g : TrustGraph) (broken : List Edge) (a b : String) : Prop :=
  (⟨a, b⟩ : Edge) ∈ g.edges ∧ (⟨a, b⟩ : Edge) ∉ broken

/-- A walk along sound edges that enters no node of `path`. -/
inductive WalkOff (g : TrustGraph) (broken : List Edge) (path : List String) :
    String → String → Prop
  | here (a : String) : WalkOff g broken path a a
  | step {a b c : String} (sound : g.Sound broken a b) (new : b ∉ path)
      (walk : WalkOff g broken path b c) : WalkOff g broken path a c

variable {g : TrustGraph} {broken : List Edge}

/-! ## Walks -/

theorem WalkOff.mono {path shorter : List String} {a c : String} (h : ∀ x ∈ shorter, x ∈ path)
    (walk : g.WalkOff broken path a c) : g.WalkOff broken shorter a c := by
  induction walk with
  | here a => exact .here a
  | step sound new _ ih => exact .step sound (fun old => new (h _ old)) ih

/-- A walk can be made to leave its first node for good. -/
theorem WalkOff.leaving {path : List String} {a c : String} (h : g.WalkOff broken path a c) :
    g.WalkOff broken (path ++ [a]) a c := by
  -- from every node of the walk on, either `a` is left behind or the walk starts afresh at `a`
  have rest : ∀ {x}, g.WalkOff broken path x c →
      g.WalkOff broken (path ++ [a]) x c ∨ g.WalkOff broken (path ++ [a]) a c := by
    intro x walk
    induction walk with
    | here c => exact Or.inl (.here c)
    | @step x y c sound new _ ih =>
      rcases ih h with ih | ih
      · by_cases e : y = a
        · exact Or.inr (e ▸ ih)
        · exact Or.inl (.step sound (by simp [new, e]) ih)
      · exact Or.inr ih
  exact (rest h).elim id id

theorem WalkOff.reflTransGen {path : List String} {a c : String}
    (walk : g.WalkOff broken path a c) : Relation.ReflTransGen (g.Sound broken) a c := by
  induction walk with
  | here a => exact Relation.ReflTransGen.refl
  | step sound _ _ ih => exact Relation.ReflTransGen.head sound ih

theorem walkOff_of_reflTransGen {a c : String}
    (h : Relation.ReflTransGen (g.Sound broken) a c) : g.WalkOff broken [] a c := by
  induction h using Relation.ReflTransGen.head_induction_on with
  | refl => exact .here c
  | head sound _ ih => exact .step sound (by simp) ih

/-! ## The measure -/

/-- A node that joins the path is no longer free. -/
theorem freeNodes_append_lt {path : List String} {b : String} (node : b ∈ g.nodes)
    (new : b ∉ path) : g.freeNodes (path ++ [b]) < g.freeNodes path := by
  have e : (g.nodes.filter (· ∉ path ++ [b])) =
      (g.nodes.filter (· ∉ path)).filter (· ≠ b) := by
    rw [List.filter_filter]
    refine List.filter_congr fun x _ => ?_
    by_cases h : x = b <;> simp [h]
  rw [freeNodes, freeNodes, e]
  refine List.length_filter_lt_length_iff_exists.mpr ⟨b, ?_, by simp⟩
  exact List.mem_filter.mpr ⟨node, by simpa using new⟩

/-! ## The search -/

/-- One step of the search: it has arrived, or it goes on along some sound edge to a new node. -/
theorem searchWithin_succ_cases {dst current : String} {depth : Nat} {path p : List String}
    (h : g.searchWithin broken dst (depth + 1) path current = some p) :
    current = dst ∧ p = path ∨
      ∃ next, g.Sound broken current next ∧ next ∉ path ∧
        g.searchWithin broken dst depth (path ++ [next]) next = some p := by
  rw [searchWithin] at h
  split at h
  · next arrived => exact Or.inl ⟨arrived, (Option.some.inj h).symm⟩
  · obtain ⟨e, declared, h⟩ := List.exists_of_findSome?_eq_some h
    split at h
    · next allowed =>
      obtain ⟨source, sound, new⟩ := allowed
      refine Or.inr ⟨e.destination, ?_, new, h⟩
      rw [← source]
      exact ⟨declared, sound⟩
    · exact absurd h (by simp)

/-- The path that is found extends the given one by sound edges to new and distinct nodes. -/
theorem searchWithin_extends {dst : String} {depth : Nat} {path p : List String} {current : String}
    (h : g.searchWithin broken dst depth path current = some p) :
    ∃ added, p = path ++ added ∧ (current :: added).IsChain (g.Sound broken) ∧ added.Nodup ∧
      (∀ x ∈ added, x ∉ path) ∧ (current :: added).getLast? = some dst := by
  induction depth generalizing path current with
  | zero => simp [searchWithin] at h
  | succ depth ih =>
    rcases searchWithin_succ_cases h with ⟨rfl, rfl⟩ | ⟨next, sound, new, h⟩
    · exact ⟨[], by simp⟩
    · obtain ⟨added, e, chain, distinct, off, last⟩ := ih h
      refine ⟨next :: added, by simp [e], List.isChain_cons_cons.mpr ⟨sound, chain⟩, ?_, ?_, ?_⟩
      · refine List.nodup_cons.mpr ⟨fun again => ?_, distinct⟩
        exact off next again (by simp)
      · intro x member
        rcases List.mem_cons.mp member with rfl | member
        · exact new
        · exact fun old => off x member (List.mem_append_left _ old)
      · rw [List.getLast?_cons_cons]
        exact last

/-- With depth for all free nodes, the search finds whatever a walk off the path leads to. -/
theorem searchWithin_isSome_of_walk {dst : String} {depth : Nat} {path : List String}
    {current : String} (enough : g.freeNodes path < depth)
    (walk : g.WalkOff broken path current dst) :
    (g.searchWithin broken dst depth path current).isSome := by
  induction depth generalizing path current with
  | zero => exact absurd enough (Nat.not_lt_zero _)
  | succ depth ih =>
    rw [searchWithin]
    split
    · rfl
    · next away =>
      cases walk with
      | here => exact absurd rfl away
      | @step _ next _ sound new walk =>
        have fewer := freeNodes_append_lt (destination_mem_nodes sound.1) new
        refine List.findSome?_isSome_iff.mpr ⟨⟨current, next⟩, sound.1, ?_⟩
        simp only [sound.2, new, not_false_eq_true, and_self, ↓reduceIte]
        exact ih (Nat.lt_of_lt_of_le fewer (Nat.le_of_lt_succ enough)) walk.leaving

theorem walk_of_searchWithin {dst : String} {depth : Nat} {path p : List String}
    {current : String} (h : g.searchWithin broken dst depth path current = some p) :
    g.WalkOff broken path current dst := by
  induction depth generalizing path current with
  | zero => simp [searchWithin] at h
  | succ depth ih =>
    rcases searchWithin_succ_cases h with ⟨rfl, -⟩ | ⟨next, sound, new, h⟩
    · exact .here _
    · have onward : g.WalkOff broken path next dst :=
        (ih h).mono fun x old => List.mem_append_left _ old
      exact .step sound new onward

/-- The search decides whether a walk off the path leads to the target. -/
theorem searchWithin_isSome {dst : String} {depth : Nat} {path : List String} {current : String}
    (enough : g.freeNodes path < depth) :
    (g.searchWithin broken dst depth path current).isSome ↔
      g.WalkOff broken path current dst := by
  constructor
  · intro h
    obtain ⟨p, found⟩ := Option.isSome_iff_exists.mp h
    exact walk_of_searchWithin found
  · exact searchWithin_isSome_of_walk enough

/-! ## The search from a single node -/

theorem path?_eq_searchWithin (g : TrustGraph) (broken : List Edge) (src dst : String) :
    g.path? broken src dst = g.searchWithin broken dst (g.freeNodes [src] + 1) [src] src := rfl

/-- There is a path exactly if the target can be reached along sound edges. -/
theorem path?_isSome {src dst : String} :
    (g.path? broken src dst).isSome ↔ Relation.ReflTransGen (g.Sound broken) src dst := by
  rw [path?_eq_searchWithin, searchWithin_isSome (Nat.lt_succ_self _)]
  exact ⟨WalkOff.reflTransGen, fun h => (walkOff_of_reflTransGen h).leaving⟩

/-- A path is a chain of sound edges through distinct nodes from one end to the other. -/
theorem path?_spec {src dst : String} {p : List String} (h : g.path? broken src dst = some p) :
    p.head? = some src ∧ p.getLast? = some dst ∧ p.Nodup ∧ p.IsChain (g.Sound broken) := by
  obtain ⟨added, rfl, chain, distinct, off, last⟩ :=
    searchWithin_extends (path?_eq_searchWithin g broken src dst ▸ h)
  refine ⟨rfl, last, List.nodup_cons.mpr ⟨fun again => ?_, distinct⟩, chain⟩
  exact off src again (by simp)

/-- The search is complete and what it finds is right: there is a path if and only if the names are
equal or a walk of some length leads from one to the other along declared edges that are not
broken, and a path that is found is such a walk without repeated nodes. -/
theorem path?_decides_reachability (g : TrustGraph) (broken : List Edge) (src dst : String) :
    ((∃ p, g.path? broken src dst = some p) ↔
      src = dst ∨ Relation.TransGen (g.Sound broken) src dst) ∧
    ∀ p, g.path? broken src dst = some p →
      p.head? = some src ∧ p.getLast? = some dst ∧ p.Nodup ∧ p.IsChain (g.Sound broken) := by
  refine ⟨?_, fun p h => path?_spec h⟩
  rw [← Option.isSome_iff_exists, path?_isSome, Relation.reflTransGen_iff_eq_or_transGen,
    eq_comm]

end ChainConformance.TrustGraph
