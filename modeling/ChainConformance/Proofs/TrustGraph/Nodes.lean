import ChainConformance.TrustGraph.Basic

/-!
# The nodes of a trust graph

`TrustGraph.nodes` holds exactly the endpoints of the edges (`mem_nodes`) in strictly rising order
(`nodes_rising`), so no name occurs twice (`nodes_nodup`). `indexOf?` finds an element exactly if it
is in the list, and leads back to it (`getElem?_of_indexOf?`, `indexOf?_isSome`).
-/

namespace ChainConformance.TrustGraph

theorem mem_insertName {name other : String} {names : List String} :
    other ∈ insertName name names ↔ other = name ∨ other ∈ names := by
  induction names with
  | nil => simp [insertName]
  | cons first rest ih =>
    cases h : compare name first with
    | lt => simp [insertName, h]
    | eq =>
      have e : name = first := Std.LawfulEqCmp.compare_eq_iff_eq.mp h
      simp [insertName, e]
    | gt =>
      simp only [insertName, h, List.mem_cons, ih]
      exact or_left_comm

theorem insertName_rising (name : String) {names : List String}
    (h : names.Pairwise fun a b => compare a b = .lt) :
    (insertName name names).Pairwise fun a b => compare a b = .lt := by
  induction names with
  | nil => simp [insertName]
  | cons first rest ih =>
    obtain ⟨below, others⟩ := List.pairwise_cons.mp h
    cases order : compare name first with
    | lt =>
      simp only [insertName, order]
      refine List.pairwise_cons.mpr ⟨fun other member => ?_, h⟩
      rcases List.mem_cons.mp member with rfl | member
      · exact order
      · exact Std.TransCmp.lt_trans order (below other member)
    | eq => simpa [insertName, order] using h
    | gt =>
      simp only [insertName, order]
      refine List.pairwise_cons.mpr ⟨fun other member => ?_, ih others⟩
      rcases mem_insertName.mp member with rfl | member
      · exact Std.OrientedCmp.lt_of_gt order
      · exact below other member

theorem mem_foldr_insertName {name : String} {names : List String} :
    name ∈ names.foldr insertName [] ↔ name ∈ names := by
  induction names with
  | nil => simp
  | cons first rest ih => rw [List.foldr_cons, mem_insertName, ih, List.mem_cons]

/-- The nodes are the endpoints of the edges. -/
theorem mem_nodes {g : TrustGraph} {name : String} :
    name ∈ g.nodes ↔ ∃ e ∈ g.edges, name = e.source ∨ name = e.destination := by
  simp [nodes, mem_foldr_insertName]

theorem destination_mem_nodes {g : TrustGraph} {e : Edge} (h : e ∈ g.edges) :
    e.destination ∈ g.nodes :=
  mem_nodes.mpr ⟨e, h, Or.inr rfl⟩

theorem nodes_rising (g : TrustGraph) : g.nodes.Pairwise fun a b => compare a b = .lt := by
  have h : ∀ names : List String,
      (names.foldr insertName []).Pairwise fun a b => compare a b = .lt := by
    intro names
    induction names with
    | nil => exact List.Pairwise.nil
    | cons first rest ih => exact insertName_rising first ih
  exact h _

theorem nodes_nodup (g : TrustGraph) : g.nodes.Nodup := by
  refine g.nodes_rising.imp fun {a b} rising e => ?_
  simp [e] at rising

/-! ## Indices -/

theorem getElem?_of_indexOf? {α : Type} [DecidableEq α] {x : α} {xs : List α} {i : Nat}
    (h : indexOf? x xs = some i) : xs[i]? = some x := by
  obtain ⟨bound, found, -⟩ := List.findIdx?_eq_some_iff_getElem.mp h
  rw [List.getElem?_eq_getElem bound]
  exact congrArg some (of_decide_eq_true found)

/-- The position that is found is not behind any position of the element. -/
theorem le_of_indexOf? {α : Type} [DecidableEq α] {x : α} {xs : List α} {i k : Nat}
    (found : indexOf? x xs = some i) (place : xs[k]? = some x) : i ≤ k := by
  obtain ⟨_, -, before⟩ := List.findIdx?_eq_some_iff_getElem.mp found
  obtain ⟨bound, e⟩ := List.getElem?_eq_some_iff.mp place
  rcases Nat.lt_or_ge k i with earlier | later
  · exact absurd (decide_eq_true e) (before k earlier)
  · exact later

theorem indexOf?_isSome {α : Type} [DecidableEq α] {x : α} {xs : List α} :
    (indexOf? x xs).isSome ↔ x ∈ xs := by
  simp [indexOf?]

end ChainConformance.TrustGraph
