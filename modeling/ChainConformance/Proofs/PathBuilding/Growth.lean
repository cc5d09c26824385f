import ChainConformance.Proofs.PathBuilding.RoundTrip
import ChainConformance.Proofs.TrustGraph.Canonical

/-!
# Labels in a catalog that grows

A catalog grows by graphs behind its own, and its graphs by edges behind their own that join nodes
which they have. No number that an identifier can hold changes its meaning then. Proved here:

* `TrustGraph.Grown.nodes_eq`, `TrustGraph.Grown.edgeIndex?_eq`: numbers of nodes and edges in a
  graph that has grown;
* `Catalog.Grown.indexOf?_eq`, `Catalog.Grown.exists_get?`: numbers of graphs;
* `labels_survive_growth`: what was encoded keeps its label, and what was decoded is decoded to the
  same scenario, up to edges that the graph did not have.
-/

namespace ChainConformance

/-! ## Graphs -/

namespace TrustGraph

/-- The graph has the former edges first, and behind them edges between former nodes. -/
structure Grown (g g' : TrustGraph) : Prop where
  name : g'.name = g.name
  edges : ∃ further, g'.edges = g.edges ++ further ∧
    ∀ e ∈ further, e.source ∈ g.nodes ∧ e.destination ∈ g.nodes

theorem indexOf?_append {α : Type} [DecidableEq α] {x : α} {xs : List α} {i : Nat}
    (found : indexOf? x xs = some i) (ys : List α) : indexOf? x (xs ++ ys) = some i := by
  rw [indexOf?, List.findIdx?_append, ← indexOf?, found]
  rfl

variable {g g' : TrustGraph}

theorem Grown.refl (g : TrustGraph) : g.Grown g := ⟨rfl, [], (List.append_nil _).symm, nofun⟩

theorem Grown.nodes_eq (grown : g.Grown g') : g'.nodes = g.nodes := by
  obtain ⟨further, edges, inside⟩ := grown.edges
  refine nodes_eq_of_endpoints fun name => ?_
  rw [edges]
  constructor
  · rintro ⟨e, member, ended⟩
    rcases List.mem_append.mp member with former | added
    · exact ⟨e, former, ended⟩
    · obtain ⟨source, destination⟩ := inside e added
      rcases ended with rfl | rfl
      · exact mem_nodes.mp source
      · exact mem_nodes.mp destination
  · rintro ⟨e, member, ended⟩
    exact ⟨e, List.mem_append_left _ member, ended⟩

theorem Grown.nodeIndex?_eq (grown : g.Grown g') (name : String) :
    g'.nodeIndex? name = g.nodeIndex? name := by
  rw [nodeIndex?, nodeIndex?, grown.nodes_eq]

theorem Grown.edgeIndex?_eq (grown : g.Grown g') {e : Edge} {i : Nat}
    (found : g.edgeIndex? e = some i) : g'.edgeIndex? e = some i := by
  obtain ⟨further, edges, -⟩ := grown.edges
  rw [edgeIndex?, edges]
  exact indexOf?_append found further

theorem Grown.edge_eq (grown : g.Grown g') {i : Nat} {e : Edge} (place : g.edges[i]? = some e) :
    g'.edges[i]? = some e := by
  obtain ⟨further, edges, -⟩ := grown.edges
  obtain ⟨bound, -⟩ := List.getElem?_eq_some_iff.mp place
  rw [edges, List.getElem?_append_left bound, place]

end TrustGraph

/-! ## Catalogs -/

/-- The graphs of the catalog have grown in their places, and further ones stand behind them. -/
def Catalog.Grown (c c' : Catalog) : Prop :=
  ∃ kept further, c'.graphs = kept ++ further ∧ List.Forall₂ TrustGraph.Grown c.graphs kept

namespace Catalog.Grown

variable {c c' : Catalog}

theorem names (grown : c.Grown c') :
    ∃ further, c'.graphs.map (·.name) = c.graphs.map (·.name) ++ further := by
  obtain ⟨kept, further, graphs, pairs⟩ := grown
  refine ⟨further.map (·.name), ?_⟩
  have same : kept.map (·.name) = c.graphs.map (·.name) := by
    clear graphs
    generalize c.graphs = former at pairs ⊢
    induction pairs with
    | nil => rfl
    | cons pair _ ih => rw [List.map_cons, List.map_cons, pair.name, ih]
  rw [graphs, List.map_append, same]

theorem indexOf?_eq (grown : c.Grown c') {name : String} {i : Nat}
    (found : c.indexOf? name = some i) : c'.indexOf? name = some i := by
  have among (c : Catalog) :
      c.indexOf? name = TrustGraph.indexOf? name (c.graphs.map (·.name)) := by
    rw [Catalog.indexOf?, TrustGraph.indexOf?, List.findIdx?_map]
    rfl
  obtain ⟨further, names⟩ := grown.names
  rw [among] at found ⊢
  rw [names]
  exact TrustGraph.indexOf?_append found further

theorem exists_get? (grown : c.Grown c') {i : Nat} {g : TrustGraph}
    (place : c.graphs[i]? = some g) : ∃ g', c'.graphs[i]? = some g' ∧ g.Grown g' := by
  obtain ⟨kept, further, graphs, pairs⟩ := grown
  obtain ⟨g', place', pair⟩ := exists_of_getElem? pairs place
  obtain ⟨bound, -⟩ := List.getElem?_eq_some_iff.mp place'
  exact ⟨g', by rw [graphs, List.getElem?_append_left bound, place'], pair⟩

end Catalog.Grown

namespace PathBuilding

variable {c c' : Catalog}

/-! ## Numbers -/

theorem Numbers.of_grown {s : Scenario} {g : TrustGraph} {m : Identifier}
    (grown : c.Grown c') (numbers : Numbers s c g m) : ∃ g', Numbers s c' g' m := by
  obtain ⟨g', place, pair⟩ := grown.exists_get? numbers.graph
  refine ⟨g', grown.indexOf?_eq numbers.index, place, ?_, ?_, ?_, numbers.defect⟩
  · rw [pair.nodeIndex?_eq, numbers.source]
  · rw [pair.nodeIndex?_eq, numbers.target]
  · exact numbers.broken.imp fun e n found => pair.edgeIndex?_eq found

/-- The scenario over another graph, with the hint that this graph gives. -/
def Scenario.over (s : Scenario) (g : TrustGraph) : Scenario :=
  { s with graph := g, expectFailure := (g.path? s.broken s.source s.target).isNone }

theorem Denotes.of_grown {es : List Entry} {d : Scenario} {g : TrustGraph}
    (denotes : Denotes c es d) (pair : d.graph.Grown g)
    (place : c'.graphs[low (last .graph es)]? = some g) : Denotes c' es (d.over g) where
  graph := place
  source := by
    change g.nodes[_]? = _
    rw [pair.nodes_eq]
    exact denotes.source
  target := by
    change g.nodes[_]? = _
    rw [pair.nodes_eq]
    exact denotes.target
  broken := denotes.broken.imp fun n e found => pair.edge_eq found
  defect := denotes.defect
  hint := isNone_path?_eq_iff.mp rfl
  comment := denotes.comment

/-- What was decoded is decoded to the same scenario over the graph that has grown. -/
theorem decode_of_grown (grown : c.Grown c') {label : String} {d : Scenario}
    (decoded : decode label c = .ok d) :
    ∃ g, ∃ i : Nat, decode label c' = .ok (d.over g) ∧ d.graph.Grown g ∧
      c.graphs[i]? = some d.graph ∧ c'.graphs[i]? = some g := by
  obtain ⟨b, m, holds, read, found⟩ := decode_eq_ok_iff.mp decoded
  obtain ⟨es, -, rfl⟩ := Identifier.isMessage_of_ofBytes read
  have denotes := resolve_ofEntries.mp found
  obtain ⟨g, place, pair⟩ := grown.exists_get? denotes.graph
  have found' := resolve_ofEntries.mpr (denotes.of_grown pair place)
  exact ⟨g, _, decode_eq_ok_iff.mpr ⟨b, _, holds, read, found'⟩, pair, denotes.graph, place⟩

theorem hint_of_decode {label : String} {d : Scenario} (decoded : decode label c = .ok d) :
    d.over d.graph = d := by
  obtain ⟨b, m, -, read, found⟩ := decode_eq_ok_iff.mp decoded
  obtain ⟨es, -, rfl⟩ := Identifier.isMessage_of_ofBytes read
  have hint := isNone_path?_eq_iff.mpr (resolve_ofEntries.mp found).hint
  rw [Scenario.over, hint]

/-! ## Labels -/

/-- Labels keep their meaning in a catalog that has grown. A scenario that had a label has the same
one; a label that was decoded is decoded to a scenario with the same name of the graph, the same
ends, broken edges and defect, and to the very same one where only graphs came in. -/
theorem labels_survive_growth (grown : c.Grown c') :
    (∀ s label, encode s c = .ok label → encode s c' = .ok label) ∧
    (∀ label d, decode label c = .ok d → ∃ d', decode label c' = .ok d' ∧
      d'.graph.name = d.graph.name ∧ d'.source = d.source ∧ d'.target = d.target ∧
      d'.broken = d.broken ∧ d'.defect = d.defect) ∧
    (c.graphs <+: c'.graphs → ∀ label d, decode label c = .ok d → decode label c' = .ok d) := by
  refine ⟨fun s label encoded => ?_, fun label d decoded => ?_, fun front label d decoded => ?_⟩
  · obtain ⟨m, identified, printed⟩ := encode_eq_ok_iff.mp encoded
    obtain ⟨g, numbers⟩ := identify_eq_ok_iff.mp identified
    exact encode_eq_ok_iff.mpr ⟨m, identify_eq_ok_iff.mpr (numbers.of_grown grown), printed⟩
  · obtain ⟨g, i, decoded', pair, -, -⟩ := decode_of_grown grown decoded
    exact ⟨d.over g, decoded', pair.name, rfl, rfl, rfl, rfl⟩
  · obtain ⟨g, i, decoded', -, place, place'⟩ := decode_of_grown grown decoded
    -- the graphs that were there are found at their old places
    obtain ⟨further, graphs⟩ := front
    obtain ⟨bound, -⟩ := List.getElem?_eq_some_iff.mp place
    rw [← graphs, List.getElem?_append_left bound, place, Option.some.injEq] at place'
    rwa [← place', hint_of_decode decoded] at decoded'

/-- A catalog in which a graph has a new edge, and another graph stands behind the old ones. -/
def grownCatalog : Catalog :=
  ⟨2, [.twoRoots, .linear, ⟨"FIGURE_SEVEN", TrustGraph.figureSeven.edges ++ [⟨"A", "EE"⟩]⟩,
    .bridgeCa, .ofPairs "EXTRA" [("R", "E")]]⟩

/-- Two of the edges that lead to the leaf and to an intermediate are broken. -/
def severed : Scenario :=
  ⟨.figureSeven, "Trust Anchor", "EE", [⟨"B", "EE"⟩, ⟨"A", "C"⟩], some .badEku, true, ""⟩

/-- The label of a scenario without a path is decoded to one with a path, along the new edge. -/
theorem labels_survive_of_severed : ∃ d', Catalog.standard.Grown grownCatalog ∧
    encode severed grownCatalog = .ok "BABBABAYAMRAEAAEFABQ" ∧
    decode "BABBABAYAMRAEAAEFABQ" grownCatalog = .ok d' ∧ d'.broken = severed.broken ∧
    d'.source = severed.source ∧ d'.target = severed.target ∧ severed.expectFailure = true ∧
    d'.expectFailure = false := by
  have grown : Catalog.standard.Grown grownCatalog := by
    refine ⟨grownCatalog.graphs.take 4, _, (List.take_append_drop 4 _).symm, ?_⟩
    refine .cons (.refl _) (.cons (.refl _) (.cons ⟨rfl, [⟨"A", "EE"⟩], rfl, by decide⟩
      (.cons (.refl _) .nil)))
  obtain ⟨encodes, decodes, -⟩ := labels_survive_growth grown
  have encoded : encode severed .standard = .ok "BABBABAYAMRAEAAEFABQ" := by
    decide +kernel
  have decoded : decode "BABBABAYAMRAEAAEFABQ" .standard = .ok severed := by
    decide +kernel
  obtain ⟨d', decoded', -, source, target, broken, -⟩ := decodes _ _ decoded
  have hint : ((decode "BABBABAYAMRAEAAEFABQ" grownCatalog).map (·.expectFailure)).toOption =
      some false := by
    decide +kernel
  rw [decoded'] at hint
  exact ⟨d', grown, encodes _ _ encoded, decoded', broken, source, target, rfl,
    Option.some.inj hint⟩

end PathBuilding

end ChainConformance
