import ChainConformance.Proofs.PathBuilding.Synthesis

/-!
# The order of a chain

`Scenario.order` lists the edges of a scenario in the order of their certificates: those into the
target first, each group as it is declared. Proved here:

* `order_perm`: every declaration of an edge has one place;
* `chain_eq_ok_iff`: when there is a chain, and which certificate stands at each place;
* `exists_chain_of_sound`: without broken edges there is a chain;
* `chain_cases`: the certificates of a chain are those of its edges.
-/

namespace ChainConformance.PathBuilding

open X509

/-- The edges with their numbers, in the order of their certificates. -/
def Scenario.order (s : Scenario) : List (Edge × Nat) :=
  s.graph.edges.zipIdx.filter (·.1.destination = s.target) ++
    s.graph.edges.zipIdx.filter fun p => ! decide (p.1.destination = s.target)

theorem order_perm (s : Scenario) : s.order.Perm s.graph.edges.zipIdx :=
  List.filter_append_perm _ _

theorem mem_order {s : Scenario} {e : Edge} {j : Nat} :
    (e, j) ∈ s.order ↔ s.graph.edges[j]? = some e := by
  rw [(order_perm s).mem_iff, List.mk_mem_zipIdx_iff_getElem?]

section
variable {root : Root} {d : Draws} {leafName : String} {s : Scenario} {chain : Chain}

/-- The certificate of a numbered edge, as a part of the chain. -/
def IssuedFor (entities : Entities) (d : Draws) (leafName : String) (s : Scenario) (p : Edge × Nat)
    (l : Link) : Prop :=
  ∃ c, s.issueEdge entities d leafName p.2 p.1 = .ok c ∧ l = .issued c

theorem IssuedFor.unique {entities : Entities} {p : Edge × Nat} {l l' : Link}
    (h : IssuedFor entities d leafName s p l) (h' : IssuedFor entities d leafName s p l') :
    l = l' := by
  obtain ⟨c, made, rfl⟩ := h
  obtain ⟨c', made', rfl⟩ := h'
  rw [made] at made'
  cases made'
  rfl

/-- Certificates that are issued edge by edge make a chain in which they stand in order. -/
theorem issuedFor_of_mapM {entities : Entities} {issued : List (Edge × Issued)}
    (h : s.graph.edges.zipIdx.mapM (fun p => do
      return (p.1, ← s.issueEdge entities d leafName p.2 p.1)) = .ok issued) :
    List.Forall₂ (IssuedFor entities d leafName s) s.order
      (((issued.partition (·.1.destination = s.target)).1 ++
        (issued.partition (·.1.destination = s.target)).2).map fun p => Link.issued p.2) := by
  have each : List.Forall₂ (fun p q => q.1 = p.1 ∧
      s.issueEdge entities d leafName p.2 p.1 = .ok q.2) s.graph.edges.zipIdx issued := by
    refine (mapM_eq_ok_iff.mp h).imp fun p q paired => ?_
    obtain ⟨c, made, e⟩ := bind_eq_ok_iff.mp paired
    cases e
    exact ⟨rfl, made⟩
  rw [List.partition_eq_filter_filter, List.forall₂_map_right_iff, Scenario.order]
  have leaves := List.rel_filter (p := (·.1.destination = s.target))
    (q := (·.1.destination = s.target)) (fun p q h => by simp [h.1]) each
  have others := List.rel_filter (p := fun p => ! decide (p.1.destination = s.target))
    (q := fun q => ! decide (q.1.destination = s.target)) (fun p q h => by simp [h.1]) each
  refine (List.rel_append leaves others).imp fun p q h => ?_
  exact ⟨q.2, h.2, rfl⟩

/-- There is a chain if and only if every node has an entity, among them the target, and every edge
a certificate. The chain has the certificates in order, and the target's key. -/
theorem chain_eq_ok_iff : s.chain root d leafName = .ok chain ↔
    ∃ entities target, s.entities root d = .ok entities ∧ entities.get s.target = .ok target ∧
      List.Forall₂ (IssuedFor entities d leafName s) s.order chain.links ∧
      chain.key = target.key := by
  rw [Scenario.chain]
  constructor
  · intro h
    obtain ⟨entities, made, h⟩ := bind_eq_ok_iff.mp h
    obtain ⟨issued, edges, h⟩ := bind_eq_ok_iff.mp h
    obtain ⟨target, found, h⟩ := bind_eq_ok_iff.mp h
    cases h
    exact ⟨entities, target, made, found, issuedFor_of_mapM edges, rfl⟩
  · rintro ⟨entities, target, made, found, placed, key⟩
    obtain ⟨issued, edges⟩ : ∃ issued, s.graph.edges.zipIdx.mapM (fun p => do
        return (p.1, ← s.issueEdge entities d leafName p.2 p.1)) = .ok issued := by
      simp only [mapM_eq_ok_iff, exists_forall₂_iff]
      intro p member
      obtain ⟨l, -, c, made, -⟩ := exists_of_mem_left placed ((order_perm s).mem_iff.mpr member)
      exact ⟨(p.1, c), bind_eq_ok_iff.mpr ⟨c, made, rfl⟩⟩
    have links := (List.right_unique_forall₂' fun _ _ _ h h' => h.unique h')
      (issuedFor_of_mapM edges) placed
    refine bind_eq_ok_iff.mpr ⟨entities, made, bind_eq_ok_iff.mpr ⟨issued, edges,
      bind_eq_ok_iff.mpr ⟨target, found, ?_⟩⟩⟩
    cases chain
    cases key
    cases links
    rfl

/-- There is a chain without broken edges as soon as all nodes have entities and all edges
templates. -/
theorem exists_chain_of_sound {entities : Entities} (free : s.broken = [])
    (made : s.entities root d = .ok entities) (node : s.target ∈ s.graph.nodes)
    (plain : ∀ e ∈ s.graph.edges, ∀ j x, ∃ t, s.template d leafName j e x = .ok t) :
    ∃ chain, s.chain root d leafName = .ok chain := by
  obtain ⟨target, found⟩ := exists_entity made node
  obtain ⟨links, placed⟩ : ∃ links,
      List.Forall₂ (IssuedFor entities d leafName s) s.order links := by
    rw [exists_forall₂_iff]
    rintro ⟨e, j⟩ ordered
    have declared := List.mem_of_getElem? (mem_order.mp ordered)
    obtain ⟨issuer, source⟩ :=
      exists_entity made (TrustGraph.mem_nodes.mpr ⟨e, declared, Or.inl rfl⟩)
    obtain ⟨subject, destination⟩ :=
      exists_entity made (TrustGraph.destination_mem_nodes declared)
    obtain ⟨t, template⟩ := plain e declared j subject
    have sound : e ∉ s.broken := free ▸ List.not_mem_nil
    exact ⟨.issued _, _, issueEdge_of_sound sound source destination template, rfl⟩
  exact ⟨⟨links, target.key⟩, chain_eq_ok_iff.mpr
    ⟨entities, target, made, found, placed, rfl⟩⟩

theorem length_links (h : s.chain root d leafName = .ok chain) :
    chain.links.length = s.graph.edges.length := by
  obtain ⟨_, _, -, -, placed, -⟩ := chain_eq_ok_iff.mp h
  rw [← placed.length_eq, (order_perm s).length_eq, List.length_zipIdx]

/-- The certificates of a chain are those of the edges of the graph. -/
theorem chain_cases (h : s.chain root d leafName = .ok chain) :
    ∃ entities target, s.entities root d = .ok entities ∧ entities.get s.target = .ok target ∧
      chain.key = target.key ∧
      (∀ e ∈ s.graph.edges, ∃ c, Link.issued c ∈ chain.links ∧
        IssuedAlong entities d leafName s e c) ∧
      ∀ c, Link.issued c ∈ chain.links → ∃ e ∈ s.graph.edges,
        IssuedAlong entities d leafName s e c := by
  obtain ⟨entities, target, made, found, placed, key⟩ := chain_eq_ok_iff.mp h
  refine ⟨entities, target, made, found, key, ?_, ?_⟩
  · intro e declared
    obtain ⟨j, position⟩ := List.mem_iff_getElem?.mp declared
    obtain ⟨l, member, c, issues, rfl⟩ := exists_of_mem_left placed (mem_order.mpr position)
    exact ⟨c, member, issuedAlong_of_issueEdge issues⟩
  · intro c present
    obtain ⟨⟨e, j⟩, position, c', issues, same⟩ := exists_of_mem_right placed present
    cases same
    exact ⟨e, List.mem_of_getElem? (mem_order.mp position), issuedAlong_of_issueEdge issues⟩

end

end ChainConformance.PathBuilding
