import ChainConformance.Proofs.Text.ByteOrder
import ChainConformance.Proofs.TrustGraph.Nodes

/-!
# The numbers of nodes and edges

Identifiers number the nodes of a graph by the place of their names in `TrustGraph.nodes`, and the
edges by their first declarations. Proved here:

* `nodes_rising_bytes`: the nodes rise in the order of the UTF-8 forms of their names;
* `nodes_eq_of_endpoints`: they depend on nothing but the set of endpoints;
* `indexOf?_eq_some_iff`, `nodeIndex?_eq_some_iff`: what the numbers are;
* `numbers_canonical`: all of this for the graph of any list of edges.
-/

namespace ChainConformance.TrustGraph

variable {g g' : TrustGraph}

/-- The name is an endpoint of one of the edges. -/
def IsEndpoint (edges : List Edge) (name : String) : Prop :=
  ∃ e ∈ edges, name = e.source ∨ name = e.destination

/-! ## Nodes -/

theorem nodes_rising_bytes (g : TrustGraph) :
    g.nodes.Pairwise fun a b => Bytes.ofString a < Bytes.ofString b :=
  g.nodes_rising.imp fun {_ _} rising =>
    Bytes.ofString_lt_iff.mpr (compareOfLessAndEq_eq_lt.mp rising)

/-- Graphs with the same endpoints have the same nodes, whatever the order of the edges is and how
often they are declared. -/
theorem nodes_eq_of_endpoints
    (same : ∀ name, IsEndpoint g.edges name ↔ IsEndpoint g'.edges name) : g.nodes = g'.nodes := by
  have members (name : String) : name ∈ g.nodes ↔ name ∈ g'.nodes :=
    (mem_nodes.trans (same name)).trans mem_nodes.symm
  have shuffled : g.nodes.Perm g'.nodes :=
    (List.perm_ext_iff_of_nodup g.nodes_nodup g'.nodes_nodup).mpr members
  refine List.Perm.eq_of_pairwise (fun a b _ _ less more => ?_) g.nodes_rising g'.nodes_rising
    shuffled
  exact absurd more (Std.OrientedCmp.not_lt_of_lt less)

/-! ## Positions -/

theorem indexOf?_eq_some_iff {α : Type} [DecidableEq α] {x : α} {xs : List α} {i : Nat} :
    indexOf? x xs = some i ↔ xs[i]? = some x ∧ ∀ k < i, xs[k]? ≠ some x := by
  constructor
  · intro found
    refine ⟨getElem?_of_indexOf? found, fun k earlier place => ?_⟩
    exact Nat.not_le.mpr earlier (le_of_indexOf? found place)
  · rintro ⟨place, first⟩
    obtain ⟨k, found⟩ := Option.isSome_iff_exists.mp
      (indexOf?_isSome.mpr (List.mem_of_getElem? place))
    have least : k ≤ i := le_of_indexOf? found place
    rcases Nat.lt_or_eq_of_le least with earlier | rfl
    · exact absurd (getElem?_of_indexOf? found) (first k earlier)
    · exact found

theorem indexOf?_eq_none_iff {α : Type} [DecidableEq α] {x : α} {xs : List α} :
    indexOf? x xs = none ↔ x ∉ xs := by
  rw [← indexOf?_isSome, Option.not_isSome_iff_eq_none]

/-- As no name occurs twice, the number of a name and the name with a number are inverse. -/
theorem nodeIndex?_eq_some_iff {name : String} {i : Nat} :
    g.nodeIndex? name = some i ↔ g.nodes[i]? = some name := by
  rw [nodeIndex?, indexOf?_eq_some_iff, and_iff_left_iff_imp]
  intro place k earlier again
  obtain ⟨bound, -⟩ := List.getElem?_eq_some_iff.mp again
  have equal : k = i := (List.getElem?_inj bound g.nodes_nodup).mp (again.trans place.symm)
  exact Nat.ne_of_lt earlier equal

/-! ## Both together -/

/-- The graph has the edges as they are given, and numbers for nodes and edges that are fixed by
the endpoints and by the first declarations. -/
structure Canonical (g : TrustGraph) (edges : List Edge) : Prop where
  kept : g.edges = edges
  rising : g.nodes.Pairwise fun a b => Bytes.ofString a < Bytes.ofString b
  nodes : ∀ name, name ∈ g.nodes ↔ IsEndpoint edges name
  settled : ∀ g' : TrustGraph, (∀ name, IsEndpoint g'.edges name ↔ IsEndpoint edges name) →
    g'.nodes = g.nodes
  node : ∀ name i, g.nodeIndex? name = some i ↔ g.nodes[i]? = some name
  noNode : ∀ name, g.nodeIndex? name = none ↔ ¬ IsEndpoint edges name
  edge : ∀ e i, g.edgeIndex? e = some i ↔ edges[i]? = some e ∧ ∀ k < i, edges[k]? ≠ some e
  noEdge : ∀ e, g.edgeIndex? e = none ↔ e ∉ edges

/-- For any list of edges, the nodes are the endpoints in the strictly rising order of their UTF-8
forms, whatever the order of the edges and their repetitions; a name has the number of its place
among the nodes, an edge that of its first declaration, and other names and edges have none. -/
theorem numbers_canonical (name : String) (edges : List Edge) :
    Canonical ⟨name, edges⟩ edges where
  kept := rfl
  rising := nodes_rising_bytes _
  nodes _ := mem_nodes
  settled _ same := nodes_eq_of_endpoints same
  node _ _ := nodeIndex?_eq_some_iff
  noNode _ := indexOf?_eq_none_iff.trans (not_congr mem_nodes)
  edge _ _ := indexOf?_eq_some_iff
  noEdge _ := indexOf?_eq_none_iff

/-- Capital letters come before small ones, and both before letters of two bytes. -/
example : (ofPairs "g" [("é", "a"), ("Z", "é"), ("é", "a")]).nodes = ["Z", "a", "é"] := by decide

end ChainConformance.TrustGraph
