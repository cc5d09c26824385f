import ChainConformance.Proofs.PathBuilding.Label
import ChainConformance.Proofs.PathBuilding.Layout
import ChainConformance.Proofs.PathBuilding.Oracle

/-!
# Which chains start with a leaf

A server presents the first certificate of a chain as its own and proves that it has the key of the
chain. `IsLeaf` says what the first certificate has to be for that. Proved here:

* `exists_order_cons`: an edge into the target comes first, if there is one;
* `isLeaf_of_issuedAlong`: the certificate of such an edge is a leaf, broken or not;
* `first_isLeaf_iff`: a chain starts with a leaf if and only if somebody issues to the target.

Labels are decoded to any two nodes of a graph, also to a target that is a root of the graph, so
that the last condition can fail (`first_not_isLeaf_of_anchor`).
-/

namespace ChainConformance.PathBuilding

open X509

/-- The certificate is issued to the target under its name, names the host, and certifies the key of
the chain. -/
structure IsLeaf (s : Scenario) (host : String) (chain : Chain) (c : Issued) : Prop where
  target : ∃ uuid, c.template.subject = .subject (some s.target) uuid
  named : c.NamesHost host
  certified : c.subjectKey = chain.key

/-- A scenario whose target is a node has edges. The first in order leads to the target, if one of
them does. -/
theorem exists_order_cons {s : Scenario} (node : s.target ∈ s.graph.nodes) :
    ∃ e j others, s.order = (e, j) :: others ∧
      ((∃ e ∈ s.graph.edges, e.destination = s.target) → e.destination = s.target) := by
  cases leaves : s.graph.edges.zipIdx.filter (·.1.destination = s.target) with
  | cons p rest =>
    obtain ⟨e, j⟩ := p
    have member : (e, j) ∈ s.graph.edges.zipIdx.filter (·.1.destination = s.target) := by
      rw [leaves]
      exact List.mem_cons_self
    have ends : e.destination = s.target := by simpa using (List.mem_filter.mp member).2
    exact ⟨e, j, _, by rw [Scenario.order, leaves, List.cons_append], fun _ => ends⟩
  | nil =>
    obtain ⟨e, declared, -⟩ := TrustGraph.mem_nodes.mp node
    obtain ⟨j, place⟩ := List.mem_iff_getElem?.mp declared
    obtain ⟨⟨first, i⟩, others, order⟩ :=
      List.exists_cons_of_ne_nil (List.ne_nil_of_mem (mem_order.mpr place))
    refine ⟨first, i, others, order, ?_⟩
    rintro ⟨e', declared', ends⟩
    obtain ⟨k, place'⟩ := List.mem_iff_getElem?.mp declared'
    have absent := List.filter_eq_nil_iff.mp leaves (e', k)
      (List.mk_mem_zipIdx_iff_getElem?.mpr place')
    exact absurd (decide_eq_true ends) absent

section
variable {root : Root} {d : Draws} {leafName : String} {s : Scenario} {chain : Chain}
  {entities : Entities} {target : Entity} {e : Edge} {c : Issued}

/-- The certificate of an edge into the target is a leaf, also if the edge is broken. -/
theorem isLeaf_of_issuedAlong (found : entities.get s.target = .ok target)
    (key : chain.key = target.key) (along : IssuedAlong entities d leafName s e c)
    (ends : e.destination = s.target) : IsLeaf s leafName chain c := by
  obtain ⟨subject, j, t, destination, certified, plain, names, name, others⟩ :=
    common_of_issuedAlong along
  rw [template_leaf plain ends] at names name
  rw [ends, found] at destination
  cases destination
  refine ⟨⟨_, name⟩, ?_, certified.trans key.symm⟩
  apply Issued.namesHost_of_mem others
  rw [names]
  exact List.mem_singleton_self leafName

/-- The certificate of any other edge names no host. -/
theorem not_namesHost_of_inner (along : IssuedAlong entities d leafName s e c)
    (inner : e.destination ≠ s.target) (host : String) : ¬ c.NamesHost host := by
  obtain ⟨subject, j, t, -, -, plain, names, -, others⟩ := common_of_issuedAlong along
  rw [template_inner plain inner] at names
  exact Issued.not_namesHost_of_nil others names host

/-- If no edge leads to the target, then no certificate of the chain is a leaf. -/
theorem not_isLeaf_of_away (made : s.chain root d leafName = .ok chain)
    (away : ∀ e ∈ s.graph.edges, e.destination ≠ s.target) (present : Link.issued c ∈ chain.links) :
    ¬ IsLeaf s leafName chain c := by
  obtain ⟨_, -, -, -, -, -, issued⟩ := chain_cases made
  obtain ⟨e, declared, along⟩ := issued c present
  intro leaf
  exact not_namesHost_of_inner along (away e declared) leafName leaf.named

/-- The first certificate of a chain is that of an edge into the target, if there is one. -/
theorem exists_first (made : s.chain root d leafName = .ok chain) :
    ∃ entities target e first others, entities.get s.target = .ok target ∧
      chain.key = target.key ∧ chain.links = .issued first :: others ∧
      IssuedAlong entities d leafName s e first ∧
      ((∃ e ∈ s.graph.edges, e.destination = s.target) → e.destination = s.target) := by
  obtain ⟨entities, target, present, found, placed, key⟩ := chain_eq_ok_iff.mp made
  obtain ⟨i, position, -⟩ := entity_of_get present found
  obtain ⟨e, j, others, order, leading⟩ := exists_order_cons (List.mem_of_getElem? position)
  rw [order] at placed
  obtain ⟨l, rest, ⟨first, issues, rfl⟩, -, links⟩ := List.forall₂_cons_left_iff.mp placed
  exact ⟨entities, target, e, first, rest, found, key, links, issuedAlong_of_issueEdge issues,
    leading⟩

/-- A chain has a first certificate, and that is a leaf if and only if some edge leads to the
target. If none does, then no certificate of the chain is a leaf. -/
theorem first_isLeaf_iff (made : s.chain root d leafName = .ok chain) :
    ∃ first others, chain.links = .issued first :: others ∧
      (IsLeaf s leafName chain first ↔ ∃ e ∈ s.graph.edges, e.destination = s.target) ∧
      ((∀ e ∈ s.graph.edges, e.destination ≠ s.target) →
        ∀ c, Link.issued c ∈ chain.links → ¬ IsLeaf s leafName chain c) := by
  obtain ⟨entities, target, e, first, others, found, key, links, along, leading⟩ :=
    exists_first made
  refine ⟨first, others, links, ⟨fun leaf => ?_, fun ends => ?_⟩,
    fun away c member => not_isLeaf_of_away made away member⟩
  · by_contra away
    push Not at away
    exact not_isLeaf_of_away made away (by rw [links]; exact List.mem_cons_self) leaf
  · exact isLeaf_of_issuedAlong found key along (leading ends)

end

/-- A chain in which the trusted node is the target: its first certificate is the one that the root
of the graph issues to that node. -/
theorem first_isLeaf_of_intermediate : ∃ s chain first others,
    decode "BAARAAIYAE" .standard = .ok s ∧ s.source = "ICA" ∧ s.target = "ICA" ∧
      s.chain unsignedRoot (numberedDraws 0) hostname = .ok chain ∧
      chain.links = .issued first :: others ∧ IsLeaf s hostname chain first := by
  have succeeds : ((Scenario.sound .linear "ICA" "ICA").chain unsignedRoot (numberedDraws 0)
      hostname).toBool = true := by
    decide +kernel
  cases made : (Scenario.sound .linear "ICA" "ICA").chain unsignedRoot (numberedDraws 0)
      hostname with
  | error e =>
    rw [made] at succeeds
    cases succeeds
  | ok chain =>
    obtain ⟨first, others, links, leaf, -⟩ := first_isLeaf_iff made
    refine ⟨_, chain, first, others, by decide +kernel, rfl, rfl, made, links, leaf.mpr ?_⟩
    exact ⟨⟨"Trust Anchor", "ICA"⟩, by decide +kernel, rfl⟩

/-- The label of a scenario whose target is the root of its graph. It is decoded, and there is a
chain, but the first certificate is not a leaf, nor is any other one. -/
theorem first_not_isLeaf_of_anchor : ∃ s chain first others,
    decode "BAARQAQ" .standard = .ok s ∧ s.target = "Trust Anchor" ∧
      s.chain unsignedRoot (numberedDraws 0) hostname = .ok chain ∧
      chain.links = .issued first :: others ∧ ¬ IsLeaf s hostname chain first ∧
      ∀ c, Link.issued c ∈ chain.links → ¬ IsLeaf s hostname chain c := by
  let s : Scenario := { Scenario.sound .linear "EE" "Trust Anchor" with expectFailure := true }
  have succeeds : (s.chain unsignedRoot (numberedDraws 0) hostname).toBool = true := by
    decide +kernel
  cases made : s.chain unsignedRoot (numberedDraws 0) hostname with
  | error e =>
    rw [made] at succeeds
    cases succeeds
  | ok chain =>
    have none (c : Issued) (present : Link.issued c ∈ chain.links) : ¬ IsLeaf s hostname chain c :=
      not_isLeaf_of_away made (by decide +kernel) present
    obtain ⟨-, -, -, first, others, -, -, links, -⟩ := exists_first made
    refine ⟨s, chain, first, others, by decide +kernel, rfl, made, links, none first ?_, none⟩
    rw [links]
    exact List.mem_cons_self

end ChainConformance.PathBuilding
