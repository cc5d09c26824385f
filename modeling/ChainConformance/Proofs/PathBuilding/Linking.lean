import ChainConformance.Proofs.PathBuilding.Layout
import ChainConformance.Proofs.X509.Signing
import ChainConformance.Proofs.PathBuilding.Oracle

/-!
# Who issues to whom

A chain has one certificate for each declaration of an edge, and every node stands for one entity
throughout the chain. `Cast` says who the entities are, `Binds` what the certificate of an edge has
from those of its two nodes. Proved here:

* `exists_cast`: every scenario whose entities are made has a cast;
* `binds_of_issueEdge`: the certificate of an edge binds the entities of its nodes, broken or not;
* `chain_binds_entities`: which certificate stands at which place of a chain.
-/

namespace ChainConformance.PathBuilding

open X509

/-- Who the nodes of a scenario stand for: the source for the root, with the name and the issuer
that are read off it, and every other node for an entity that is drawn under the node's number. -/
structure Cast (root : Root) (d : Draws) (s : Scenario) (entity : String → Entity) : Prop where
  subject : s.source ∈ s.graph.nodes → root.subject = .ok (entity s.source).subject
  issuer : s.source ∈ s.graph.nodes → root.issuer = .ok (entity s.source).issuer
  key : s.source ∈ s.graph.nodes → (entity s.source).key = root.key
  fresh : ∀ i node, s.graph.nodes[i]? = some node → node ≠ s.source →
    entity node = Entity.fresh d i node

/-- What the certificate of an edge has from the entities of its nodes, and what it has because it
is or is not that of a leaf. -/
structure Binds (sign : KeyPair → Bytes → Bytes) (entity : String → Entity) (leafName : String)
    (s : Scenario) (e : Edge) (x : Signed) : Prop where
  issuer : x.part.issuer = (entity e.source).issuer.name.toSets
  signed : x.SignedBy sign (entity e.source).key
  algorithm : x.part.algorithm = x.algorithm
  keyAlgorithm : x.part.keyAlgorithm = (entity e.destination).key.algorithm
  key : x.part.key = 0 :: (entity e.destination).key.publicBits
  inner : e.destination ≠ s.target → x.part.subject = (entity e.destination).subject.toSets
  leaf : e.destination = s.target →
    ∃ uuid, x.part.subject = (DistinguishedName.subject (some s.target) uuid).toSets
  names : ∀ value, x.part.Carries Oid.subjectAltName value ↔ e.destination = s.target ∧
    value = Der.sequence [Der.tagged 2 (Bytes.ofString leafName)]
  usage : ∀ value, x.part.Carries Oid.keyUsage value ↔ value = Der.encode 0x03
    (if e.destination = s.target then KeyUsage.digitalSignature
      else KeyUsage.certificateSigning).bits

section
variable {root : Root} {d : Draws} {leafName : String} {s : Scenario} {entities : Entities}

/-! ## The entities -/

/-- The entities of the nodes as a function, which gives `other` for what is no node. -/
def Entities.at (entities : Entities) (other : Entity) (node : String) : Entity :=
  (entities.get node).toOption.getD other

theorem Entities.at_eq {node : String} {x : Entity} (found : entities.get node = .ok x)
    (other : Entity) : entities.at other node = x := by
  rw [Entities.at, found]
  rfl

theorem exists_cast (made : s.entities root d = .ok entities) (other : Entity) :
    Cast root d s (entities.at other) := by
  have rooted (member : s.source ∈ s.graph.nodes) :
      Entity.ofRoot root = .ok (entities.at other s.source) := by
    obtain ⟨x, found⟩ := exists_entity made member
    rw [Entities.at_eq found]
    obtain ⟨i, -, ⟨-, rooted⟩ | ⟨foreign, -⟩⟩ := entity_of_get made found
    · exact rooted
    · exact absurd rfl foreign
  refine ⟨fun member => ?_, fun member => ?_, fun member => ?_, ?_⟩
  · obtain ⟨name, named, h⟩ := bind_eq_ok_iff.mp (rooted member)
    obtain ⟨issuer, -, e⟩ := bind_eq_ok_iff.mp h
    rw [named, ← Except.ok.inj e]
  · obtain ⟨x, found⟩ := exists_entity made member
    rw [Entities.at_eq found]
    exact issuer_of_source made found
  · obtain ⟨x, found⟩ := exists_entity made member
    rw [Entities.at_eq found]
    exact key_of_source made found
  · intro i node position foreign
    obtain ⟨x, found⟩ := exists_entity made (List.mem_of_getElem? position)
    rw [Entities.at_eq found]
    obtain ⟨j, place, ⟨source, -⟩ | ⟨-, fresh⟩⟩ := entity_of_get made found
    · exact absurd source foreign
    · -- no node occurs twice, so the number of the draw is that of the node
      have bound := (List.getElem?_eq_some_iff.mp position).1
      have same : i = j :=
        (List.getElem?_inj bound s.graph.nodes_nodup).mp (position.trans place.symm)
      rw [fresh, same]

/-! ## The certificates -/

section
variable {e : Edge} {t : Template} {issuer : Issuer} {key : KeyPair} {c : Issued}

/-- However a certificate is finished, it is issued by the issuer for the key, and a SHA-1 signature
takes the private number of the issuer's key. -/
theorem issuer_of_finished (finished : Finished d s e t issuer key c) :
    c.issuer = issuer ∧ c.subjectKey = key ∧
      ∀ number, c.resigned = some number → c.issuer.key.secret = .p256 number := by
  cases finished with
  | sound | spoiled =>
    refine ⟨rfl, rfl, ?_⟩
    rintro number ⟨⟩
  | resigned _ _ secret =>
    refine ⟨rfl, rfl, ?_⟩
    rintro number ⟨⟩
    exact secret

/-- No defect touches the name, the alternative names or the usage of the key. -/
theorem template_of_finished (finished : Finished d s e t issuer key c) :
    c.template.subject = t.subject ∧ c.template.dnsNames = t.dnsNames ∧
      c.template.keyUsage = t.keyUsage ∧ c.template.others = t.others := by
  cases finished with
  | sound | resigned => exact ⟨rfl, rfl, rfl, rfl⟩
  | @spoiled defect _ _ _ => cases defect <;> exact ⟨rfl, rfl, rfl, rfl⟩

end

theorem binds_of_issueEdge {sign : KeyPair → Bytes → Bytes} {e : Edge} {j : Nat} {c : Issued}
    (issues : s.issueEdge entities d leafName j e = .ok c) (other : Entity) :
    Binds sign (entities.at other) leafName s e (c.signed sign) := by
  obtain ⟨source, destination, t, found, found', plain, finished⟩ := finished_of_issueEdge issues
  obtain ⟨issuer, key, secret⟩ := issuer_of_finished finished
  obtain ⟨subject, names, usage, others⟩ := template_of_finished finished
  rw [(template_common plain).1] at others
  have part := Issued.signed_part sign c
  constructor
  case issuer =>
    rw [part, Entities.at_eq found, ← issuer]
    rfl
  case signed =>
    rw [Entities.at_eq found]
    have signed := Issued.signedBy_signed sign secret
    rw [issuer] at signed
    exact signed
  case algorithm => rw [part]
  case keyAlgorithm =>
    rw [part, Entities.at_eq found', ← key]
    rfl
  case key =>
    rw [part, Entities.at_eq found', ← key]
    rfl
  case inner =>
    intro inner
    rw [part, Entities.at_eq found']
    change c.template.subject.toSets = _
    rw [subject, template_inner plain inner]
    rfl
  case leaf =>
    intro ends
    refine ⟨d.uuid (s.graph.nodes.length + j), ?_⟩
    rw [part]
    change c.template.subject.toSets = _
    rw [subject, template_leaf plain ends]
  case names =>
    intro value
    rw [Issued.carries_signed, Issued.carries_iff others, names]
    by_cases ends : e.destination = s.target
    · simp [template_leaf plain ends, ends, Issued.extension_oids]
    · simp [template_inner plain ends, ends, Issued.extension_oids, Template.authority]
  case usage =>
    intro value
    rw [Issued.carries_signed, Issued.carries_iff others, usage]
    by_cases ends : e.destination = s.target
    · simp [template_leaf plain ends, ends, Issued.extension_oids]
    · simp [template_inner plain ends, ends, Issued.extension_oids, Template.authority]

/-! ## The chain -/

/-- The edges in the order of their certificates: those into the target first, each group as it is
declared. -/
theorem order_edges (s : Scenario) : s.order.map (·.1) =
    s.graph.edges.filter (·.destination = s.target) ++
      s.graph.edges.filter (·.destination ≠ s.target) := by
  have numbered (p : Edge → Bool) :
      (s.graph.edges.zipIdx.filter fun q => p q.1).map (·.1) = s.graph.edges.filter p := by
    rw [← List.zipIdx_map_fst 0 s.graph.edges, List.filter_map, List.zipIdx_map_fst]
    rfl
  rw [Scenario.order, List.map_append, numbered fun e => e.destination = s.target,
    numbered fun e => ! decide (e.destination = s.target)]
  simp only [ne_eq, decide_not]

/-- A chain has one certificate for each declaration of an edge, which binds the entities of its
nodes, and the key of the target's entity. -/
theorem chain_binds_entities {chain : Chain} (made : s.chain root d leafName = .ok chain)
    (sign : KeyPair → Bytes → Bytes) :
    ∃ entity, Cast root d s entity ∧ chain.key = (entity s.target).key ∧
      ∃ certificates : List Signed, chain.der sign = certificates.map Signed.encode ∧
        List.Forall₂ (Binds sign entity leafName s)
          (s.graph.edges.filter (·.destination = s.target) ++
            s.graph.edges.filter (·.destination ≠ s.target)) certificates := by
  obtain ⟨entities, target, present, found, placed, key⟩ := chain_eq_ok_iff.mp made
  refine ⟨entities.at target, exists_cast present target, ?_, ?_⟩
  · rw [Entities.at_eq found, key]
  · obtain ⟨issued, edges, links⟩ := exists_map_of_forall₂ placed
    refine ⟨issued.map (Issued.signed sign), ?_, ?_⟩
    · rw [Chain.der, links, List.map_map, List.map_map]
      rfl
    · rw [← order_edges, List.forall₂_map_left_iff, List.forall₂_map_right_iff]
      exact edges.imp fun p c issues => binds_of_issueEdge issues target

end

/-- A graph with a loop at the target, a way back to the root and an edge that is declared twice. -/
def knot : Scenario where
  graph := .ofPairs "KNOT" [("R", "I"), ("I", "E"), ("I", "R"), ("E", "E"), ("I", "E"), ("R", "I")]
  source := "R"
  target := "E"
  broken := [⟨"I", "E"⟩]
  defect := some .missingBasicConstraints
  expectFailure := true
  comment := ""

/-- The leaves of the knot come first, the one by the leaf itself in the middle. -/
theorem chain_binds_entities_of_knot : ∃ chain entity,
    knot.chain unsignedRoot (numberedDraws 0) hostname = .ok chain ∧
      Cast unsignedRoot (numberedDraws 0) knot entity ∧ chain.key = (entity "E").key ∧
      ∃ certificates : List Signed,
        chain.der (fun _ _ => []) = certificates.map Signed.encode ∧
        List.Forall₂ (Binds (fun _ _ => []) entity hostname knot)
          [⟨"I", "E"⟩, ⟨"E", "E"⟩, ⟨"I", "E"⟩, ⟨"R", "I"⟩, ⟨"I", "R"⟩, ⟨"R", "I"⟩]
          certificates := by
  have succeeds : (knot.chain unsignedRoot (numberedDraws 0) hostname).toBool = true := by
    decide +kernel
  obtain ⟨chain, made⟩ := exists_ok_of_toBool succeeds
  obtain ⟨entity, cast, key, certificates, encoded, bound⟩ :=
    chain_binds_entities made fun _ _ => []
  exact ⟨chain, entity, made, cast, key, certificates, encoded, bound⟩

end ChainConformance.PathBuilding
