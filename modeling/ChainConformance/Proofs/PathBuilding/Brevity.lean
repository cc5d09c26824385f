import ChainConformance.Proofs.PathBuilding.Refusal
import ChainConformance.Proofs.Root.Generated

/-!
# Chains of ordinary size

No certificate of a chain is too long to be decoded if the names and the keys in it are of ordinary
size. Proved here:

* `isBounded_issue`: so is every part of a certificate;
* `undecodable_iff_of_brief`: what is the matter with a certificate that cannot be decoded then;
* `exists_chain_of_brief`: a scenario that is no template has a chain then, if the root's name can
  be decoded and it is late enough;
* `exists_chain_seeded`: what the program draws is of ordinary size.
-/

namespace ChainConformance.PathBuilding

open X509 DistinguishedName

/-- The names, the keys and the signatures of a chain are of ordinary size. -/
structure Brief (s : Scenario) (name : DistinguishedName) (issuer : Issuer) (d : Draws)
    (leafName : String) : Prop where
  name : name.encode.length ≤ 20000
  rootKey : issuer.keyId.length ≤ 20000 ∧ issuer.key.publicBits.length ≤ 20000
  nodes : ∀ node ∈ s.graph.nodes, node.length ≤ 200
  leaf : leafName.length ≤ 2000
  uuid : ∀ i, (d.uuid i).length ≤ 100
  keys : ∀ i, (d.key i).publicBits.length ≤ 20000
  signatures : ∀ message, (d.sign issuer.key message).length ≤ 20000 ∧
    ∀ i, (d.sign (d.key i) message).length ≤ 20000

section
variable {root : Root} {d : Draws} {leafName : String} {s : Scenario} {name : DistinguishedName}
  {issuer : Issuer} (brief : Brief s name issuer d leafName)
include brief

theorem Brief.length_subject_le {node : String} (member : node ∈ s.graph.nodes) (i : Nat) :
    (subject (some node) (d.uuid i)).encode.length ≤ 20000 := by
  have whole := length_encode_subject_le node (d.uuid i)
  have text := brief.nodes node member
  have uuid := brief.uuid i
  omega

variable (named : root.subject = .ok name) (issues : root.issuer = .ok issuer)
include named issues

/-! ## Certificates -/

section
variable {entities : Entities} (made : s.entities root d = .ok entities)
include made

theorem Brief.of_get {node : String} {x : Entity} (found : entities.get node = .ok x) :
    (x.subject.encode.length ≤ 20000 ∧ x.issuer.name.encode.length ≤ 20000) ∧
      (x.issuer.keyId.length ≤ 20000 ∧ x.key.publicBits.length ≤ 20000) ∧
      ∀ message, (d.sign x.key message).length ≤ 20000 := by
  obtain ⟨i, place, ⟨-, rooted⟩ | ⟨-, rfl⟩⟩ := entity_of_get made found
  · cases (ofRoot_eq named issues).symm.trans rooted
    refine ⟨⟨brief.name, ?_⟩, brief.rootKey, fun message => (brief.signatures message).1⟩
    rw [(Root.subject_of_issuer named issues).1]
    exact brief.name
  · have fresh := brief.length_subject_le (List.mem_of_getElem? place) i
    have digest : (d.key i).identifier.length ≤ 20 := List.length_take_le _ _
    exact ⟨⟨fresh, fresh⟩, ⟨Nat.le_trans digest (by decide), brief.keys i⟩,
      fun message => (brief.signatures message).2 i⟩

variable (p256 : root.key.algorithm = .curve Oid.p256 ∧ ∃ number, root.key.secret = .p256 number)
  (drawn : d.IsRegular) (node : s.target ∈ s.graph.nodes) {j : Nat} {e : Edge} {x y : Entity}
  {t : Template} (source : entities.get e.source = .ok x)
  (destination : entities.get e.destination = .ok y) (plain : s.template d leafName j e y = .ok t)
include p256 drawn node source destination plain

theorem isBounded_issue : (t.issue x.issuer y.key).IsBounded 20000 d.sign := by
  obtain ⟨⟨-, issuer⟩, ⟨issuerKey, -⟩, signature⟩ := brief.of_get named issues made source
  obtain ⟨⟨subject, -⟩, ⟨-, key⟩, -⟩ := brief.of_get named issues made destination
  obtain ⟨others, constraints, -⟩ := template_common plain
  have serial := drawn.serial j
  constructor
  case once => rfl
  case plain => exact others
  case serial =>
    change t.serial.length ≤ 20000
    rw [(template_drawn plain).1, Draws.serialNumber, List.length_cons]
    omega
  case issuer => exact issuer
  case subject =>
    by_cases ends : e.destination = s.target
    · rw [template_leaf plain ends]
      exact brief.length_subject_le node _
    · rw [template_inner plain ends]
      exact subject
  case issuerKey => exact issuerKey
  case algorithm =>
    change y.key.algorithm.encode.length ≤ 20000
    rw [algorithm_of_get made p256.1 drawn.keys destination, KeyPair.length_encode_p256]
    decide
  case key => exact key
  case hosts =>
    by_cases ends : e.destination = s.target
    · rw [template_leaf plain ends]
      have name : (Der.tagged 2 (Bytes.ofString leafName)).length ≤ _ := Der.length_encode_le _ _
      have text := Bytes.length_ofString_le leafName.toList
      have leaf := brief.leaf
      rw [String.ofList_toList, String.length_toList] at text
      change [Der.tagged 2 (Bytes.ofString leafName)].flatten.length ≤ 20000
      rw [List.flatten_singleton]
      omega
    · rw [template_inner plain ends]
      exact Nat.zero_le _
  case purposes =>
    by_cases ends : e.destination = s.target
    · rw [template_leaf plain ends]
      exact (by decide : 1 ≤ 20000)
    · rw [template_inner plain ends]
      exact Nat.zero_le _
  case constraints =>
    change ∀ k ∈ t.constraints, _
    rw [constraints]
    rintro k ⟨⟩
  case signature => exact signature _

theorem undecodable_iff_of_brief (ascii : leafName.toList.all (·.toNat < 0x80) = true)
    (position : s.graph.edges[j]? = some e) : Undecodable s root name d leafName j e ↔
      s.NamesRoot e ∧ name.isOrdinary = false ∨ d.now < 86400 := by
  have bounded := isBounded_issue brief named issues made p256 drawn node source destination plain
  have limit : 13000 * 20000 + 70000 < Strict.lengthLimit := by decide
  have small := Nat.lt_of_le_of_lt bounded.length_der_le limit
  rw [undecodable_iff named issues made source destination plain ascii node position,
    isDecodable_issue_iff named issues made source destination plain, and_iff_left small,
    not_and_or, not_not, not_not]

end

/-! ## Chains -/

theorem exists_chain_of_brief
    (p256 : root.key.algorithm = .curve Oid.p256 ∧ ∃ number, root.key.secret = .p256 number)
    (drawn : d.IsRegular) (node : s.target ∈ s.graph.nodes)
    (ascii : leafName.toList.all (·.toNat < 0x80) = true) (explained : s.isTemplate = false)
    (ordinary : name.isOrdinary = true) (late : 86400 ≤ d.now) :
    ∃ chain, s.chain root d leafName = .ok chain := by
  rw [exists_chain_iff named issues p256 drawn ascii node]
  intro j e position err refused
  rcases refused.cases with ⟨template, -⟩ | ⟨-, -, -, undecodable, -⟩
  · cases explained.symm.trans template
  obtain ⟨entities, made⟩ := exists_entities named issues (d := d) (s := s)
  have declared := List.mem_of_getElem? position
  obtain ⟨x, source⟩ := exists_entity made (TrustGraph.mem_nodes.mpr ⟨e, declared, Or.inl rfl⟩)
  obtain ⟨y, destination⟩ := exists_entity made (TrustGraph.destination_mem_nodes declared)
  obtain ⟨t, plain⟩ := exists_template (s := s) (d := d) ascii j e y
  rcases (undecodable_iff_of_brief brief named issues made p256 drawn node source destination plain
    ascii position).mp undecodable with ⟨-, odd⟩ | early
  · cases ordinary.symm.trans odd
  · omega

end

/-- A scenario that is no template has a chain with what is drawn from any seed, if the names of its
nodes are short and the root has a P-256 key and a name of ordinary size that can be decoded. -/
theorem exists_chain_seeded {root : Root} {name : DistinguishedName} {issuer : Issuer}
    (named : root.subject = .ok name) (issues : root.issuer = .ok issuer)
    (p256 : root.key.algorithm = .curve Oid.p256 ∧ ∃ number, root.key.secret = .p256 number)
    (rootSizes : name.encode.length ≤ 20000 ∧ issuer.keyId.length ≤ 20000 ∧
      root.key.publicBits.length ≤ 20000)
    (ordinary : name.isOrdinary = true) {s : Scenario} (node : s.target ∈ s.graph.nodes)
    (nodes : ∀ node ∈ s.graph.nodes, node.length ≤ 200) (explained : s.isTemplate = false)
    {leafName : String} (leaf : leafName.length ≤ 2000)
    (ascii : leafName.toList.all (·.toNat < 0x80) = true) (seed : Bytes) {now : Int}
    (late : 86400 ≤ now)
    (dated : ∀ time ∈ [(Draws.seeded seed now).notBefore, (Draws.seeded seed now).notAfter],
      0 ≤ Time.year time ∧ Time.year time ≤ 9999) :
    ∃ chain, s.chain root (.seeded seed now) leafName = .ok chain := by
  have genuine := Draws.genuine_seeded seed dated
  have rootKey : issuer.key = root.key := key_of_issuer issues
  have brief : Brief s name issuer (.seeded seed now) leafName := by
    constructor
    case name => exact rootSizes.1
    case rootKey => exact ⟨rootSizes.2.1, rootKey ▸ rootSizes.2.2⟩
    case nodes => exact nodes
    case leaf => exact leaf
    case uuid => exact fun i => Nat.le_trans (genuine.uuid i) (by decide)
    case keys =>
      intro i
      obtain ⟨n, -, -, key⟩ := genuine.key i
      rw [key]
      exact Nat.le_trans (KeyPair.length_p256Public_le n) (by decide)
    case signatures =>
      have signs {k : KeyPair} {n : Nat} (secret : k.secret = .p256 n) (message : Bytes) :
          (k.sign message).length ≤ 20000 :=
        Nat.le_trans (KeyPair.length_sign_le secret message) (by decide)
      intro message
      constructor
      · obtain ⟨n, secret⟩ := p256.2
        exact signs (rootKey ▸ secret) message
      · intro i
        obtain ⟨n, -, -, key⟩ := genuine.key i
        refine signs (k := (Draws.seeded seed now).key i) (n := n) ?_ message
        rw [key]
        rfl
  exact exists_chain_of_brief brief named issues p256 (Draws.isRegular_seeded seed dated) node ascii
    explained ordinary late

end ChainConformance.PathBuilding
