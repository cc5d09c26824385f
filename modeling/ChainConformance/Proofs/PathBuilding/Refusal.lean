import ChainConformance.Proofs.PathBuilding.Defects
import ChainConformance.Proofs.PathBuilding.Label
import ChainConformance.Proofs.PathBuilding.RootName
import ChainConformance.Proofs.PathBuilding.Verdict
import ChainConformance.Proofs.X509.Decoding

/-!
# Which scenarios have a chain

Keys that are drawn can sign, and every edge is between nodes. That leaves two reasons why no chain
is made: an edge is broken and nothing says how, or a certificate has to be signed again and cannot
be decoded for that. `Refused` says which edges are concerned, and `Undecodable` what is the matter
with their certificates: the root's name, the time, or the size. Proved here:

* `issueEdge_eq_error_iff`: why the certificate of an edge is not issued;
* `refused_of_chain_eq_error`, `exists_chain_iff`: why there is no chain;
* `decoded_is_refused_iff`: what that means for scenarios that are read off a label.
-/

namespace ChainConformance.PathBuilding

open X509 DistinguishedName

/-- The certificate of the edge bears the root's name, as issuer or as subject. -/
def Scenario.NamesRoot (s : Scenario) (e : Edge) : Prop :=
  e.source = s.source ∨ e.destination = s.source ∧ e.destination ≠ s.target

/-- Why the certificate that the `j`-th edge gets where no edge is broken cannot be decoded: it
bears the root's name, in which a type has an identifier that is out of the ordinary, it is valid
from before 1970 on, or it takes 2^28 bytes or more. -/
inductive Undecodable (s : Scenario) (root : Root) (name : DistinguishedName) (d : Draws)
    (leafName : String) (j : Nat) (e : Edge) : Prop
  | name (bears : s.NamesRoot e) (odd : name.isOrdinary = false)
  | time (early : d.now < 86400)
  | size {sound : Chain} {i : Nat} {c : Issued} (made : s.mended.chain root d leafName = .ok sound)
      (position : s.order[i]? = some (e, j)) (place : sound.links[i]? = some (.issued c))
      (long : Strict.lengthLimit ≤ (c.der d.sign).length)

/-- Why the certificate of the `j`-th edge is not issued, if the root has this name. -/
inductive Refused (s : Scenario) (root : Root) (name : DistinguishedName) (d : Draws)
    (leafName : String) (j : Nat) (e : Edge) : Error → Prop
  | unexplained (broken : e ∈ s.broken) (unknown : s.defect = none) :
      Refused s root name d leafName j e (.brokenWithoutReason e)
  | undecodable (broken : e ∈ s.broken) (sha1 : s.defect = some .deprecatedCrypto)
      (undecodable : Undecodable s root name d leafName j e) :
      Refused s root name d leafName j e (.certificate .undecodable)

theorem secret_of_signsWith {k : KeyPair} (h : k.signsWith = .ecdsaWithSha256) :
    ∃ number, k.secret = .p256 number := by
  have others : Algorithm.ed25519 ≠ .ecdsaWithSha256 ∧
      Algorithm.ecdsaWithSha384 ≠ .ecdsaWithSha256 ∧
      Algorithm.rsaWithSha256 ≠ .ecdsaWithSha256 := by
    decide +kernel
  obtain ⟨secret, _, _, _⟩ := k
  cases secret with
  | p256 number => exact ⟨number, rfl⟩
  | ed25519 seed => exact absurd h others.1
  | p384 number => exact absurd h others.2.1
  | rsa modulus exponent => exact absurd h others.2.2

section
variable {root : Root} {d : Draws} {leafName : String} {s : Scenario} {name : DistinguishedName}
  {issuer : Issuer} (named : root.subject = .ok name) (issues : root.issuer = .ok issuer)

/-! ## Entities and templates -/

section
include named issues

theorem ofRoot_eq : Entity.ofRoot root = .ok ⟨name, issuer⟩ := by
  rw [Entity.ofRoot, named, issues]
  rfl

theorem exists_entities : ∃ entities, s.entities root d = .ok entities := by
  simp only [Scenario.entities, mapM_eq_ok_iff, exists_forall₂_iff]
  rintro p -
  split
  · exact ⟨_, bind_eq_ok_iff.mpr ⟨_, ofRoot_eq named issues, rfl⟩⟩
  · exact ⟨_, rfl⟩

variable {entities : Entities} (made : s.entities root d = .ok entities)
include made

/-- The name of an entity can be decoded, unless it is the root's and that one cannot be. -/
theorem isDecodable_of_get {node : String} {x : Entity} (found : entities.get node = .ok x) :
    (x.subject.IsDecodable ↔ (node = s.source → name.isOrdinary = true)) ∧
      (x.issuer.name.IsDecodable ↔ (node = s.source → name.isOrdinary = true)) := by
  obtain ⟨i, -, ⟨source, rooted⟩ | ⟨other, rfl⟩⟩ := entity_of_get made found
  · cases (ofRoot_eq named issues).symm.trans rooted
    obtain ⟨c, -, taken⟩ := Root.subject_eq_ok_iff.mp named
    simp [source, (Root.subject_of_issuer named issues).1, isDecodable_of_ofSubject taken]
  · have fresh := isDecodable_subject (some node) (d.uuid i)
    simp [other, Entity.fresh, Issuer.ofKey, fresh]

end

section
variable {entities : Entities} (made : s.entities root d = .ok entities)
include made

/-- Every entity has a P-256 key if the root and the draws do. -/
theorem secret_of_get (secret : ∃ number, root.key.secret = .p256 number) (keys : d.AreP256)
    {node : String} {x : Entity} (found : entities.get node = .ok x) :
    ∃ number, x.key.secret = .p256 number := by
  by_cases source : node = s.source
  · subst source
    rw [key_of_source made found]
    exact secret
  · obtain ⟨i, -, drawn⟩ := key_of_other made found source
    rw [drawn]
    exact secret_of_signsWith (keys i).2

theorem algorithm_of_get (certifies : root.key.algorithm = .curve Oid.p256) (keys : d.AreP256)
    {node : String} {x : Entity} (found : entities.get node = .ok x) :
    x.key.algorithm = .curve Oid.p256 := by
  by_cases source : node = s.source
  · subst source
    rw [key_of_source made found, certifies]
  · obtain ⟨i, -, drawn⟩ := key_of_other made found source
    rw [drawn, (keys i).1]

end

theorem exists_template (ascii : leafName.toList.all (·.toNat < 0x80) = true) (j : Nat) (e : Edge)
    (x : Entity) : ∃ t, s.template d leafName j e x = .ok t := by
  rw [Scenario.template]
  split
  · exact ⟨_, bind_eq_ok_iff.mpr ⟨leafName, if_pos ascii, rfl⟩⟩
  · exact ⟨_, rfl⟩

/-! ## Certificates -/

section
variable {entities : Entities} (made : s.entities root d = .ok entities)
  (p256 : root.key.algorithm = .curve Oid.p256 ∧ ∃ number, root.key.secret = .p256 number)
  (drawn : d.IsRegular) {j : Nat} {e : Edge} {x y : Entity} {t : Template}
  (source : entities.get e.source = .ok x) (destination : entities.get e.destination = .ok y)
  (plain : s.template d leafName j e y = .ok t)
include made

include p256 drawn destination plain in
/-- The certificate of an edge is as they come up in chains. -/
theorem isRegular_issue (issuer : Issuer) : (t.issue issuer y.key).IsRegular := by
  obtain ⟨others, -, notAfter⟩ := template_common plain
  obtain ⟨serial, notBefore⟩ := template_drawn plain
  refine ⟨rfl, ?_, ?_, ?_, others⟩
  · have number : Strict.isInteger (d.serialNumber j) = true := by
      rw [Draws.serialNumber]
      cases d.serial j <;> simp [Strict.isInteger]
    change Strict.isInteger t.serial = true ∧ t.serial.length ≤ 21
    rw [serial]
    exact ⟨number, Nat.succ_le_succ (drawn.serial j)⟩
  · change ∀ time ∈ [t.notBefore, t.notAfter], _
    rw [notBefore, notAfter]
    exact drawn.dated
  · change Strict.Gives Algorithm.read? y.key.algorithm
    rw [algorithm_of_get made p256.1 drawn.keys destination]
    exact ⟨(Algorithm.curve Oid.p256).encode, [], by decide +kernel⟩

include named issues source destination plain in
/-- Only the root's name and the time matter, since the others are made up. -/
theorem isDecodable_issue_iff : (t.issue x.issuer y.key).IsDecodable ↔
    ¬ (s.NamesRoot e ∧ name.isOrdinary = false) ∧ ¬ d.now < 86400 := by
  have issuer := (isDecodable_of_get named issues made source).2
  have subject : t.subject.IsDecodable ↔
      (e.destination = s.source ∧ e.destination ≠ s.target → name.isOrdinary = true) := by
    by_cases ends : e.destination = s.target
    · -- a leaf has a name of its own, also if the target is the source
      simp [template_leaf plain ends, ends, isDecodable_subject]
    · rw [template_inner plain ends]
      simpa [Template.authority, ends] using (isDecodable_of_get named issues made destination).1
  have validity : 0 ≤ t.notBefore ∧ 0 ≤ t.notAfter ↔ ¬ d.now < 86400 := by
    rw [(template_drawn plain).2, (template_common plain).2.2, Draws.notBefore, Draws.notAfter]
    omega
  have names : x.issuer.name.IsDecodable ∧ t.subject.IsDecodable ↔
      ¬ (s.NamesRoot e ∧ name.isOrdinary = false) := by
    rw [issuer, subject, Scenario.NamesRoot]
    cases name.isOrdinary <;> simp
  rw [← names, ← validity]
  constructor
  · rintro ⟨issuer, validity, subject⟩
    exact ⟨⟨issuer, subject⟩, validity⟩
  · rintro ⟨⟨issuer, subject⟩, validity⟩
    exact ⟨issuer, validity, subject⟩

section
variable (ascii : leafName.toList.all (·.toNat < 0x80) = true) (node : s.target ∈ s.graph.nodes)
  (position : s.graph.edges[j]? = some e)
include named issues source destination plain ascii node position

/-- What is the matter with a certificate that cannot be decoded. -/
theorem undecodable_iff : Undecodable s root name d leafName j e ↔
    ¬ ((t.issue x.issuer y.key).IsDecodable ∧
      ((t.issue x.issuer y.key).der d.sign).length < Strict.lengthLimit) := by
  rw [isDecodable_issue_iff named issues made source destination plain]
  have issues' : s.mended.issueEdge entities d leafName j e = .ok (t.issue x.issuer y.key) :=
    issueEdge_of_sound List.not_mem_nil source destination plain
  constructor
  · rintro (⟨bears, odd⟩ | early | ⟨made', place, there, long⟩) ⟨⟨names, time⟩, small⟩
    · exact names ⟨bears, odd⟩
    · exact time early
    · obtain ⟨entities', -, present, -, placed, -⟩ := chain_eq_ok_iff.mp made'
      cases made.symm.trans present
      obtain ⟨_, there', c, issued, rfl⟩ := exists_of_getElem? placed place
      cases there.symm.trans there'
      cases issued.symm.trans issues'
      exact absurd small (Nat.not_lt.mpr long)
  · intro refused
    by_cases names : s.NamesRoot e ∧ name.isOrdinary = false
    · exact .name names.1 names.2
    by_cases time : d.now < 86400
    · exact .time time
    obtain ⟨sound, made'⟩ := exists_chain_of_sound (s := s.mended) rfl made node
      fun e' _ j' x' => exists_template ascii j' e' x'
    obtain ⟨entities', -, present, -, placed, -⟩ := chain_eq_ok_iff.mp made'
    cases made.symm.trans present
    obtain ⟨i, place⟩ := List.mem_iff_getElem?.mp (mem_order.mpr position)
    obtain ⟨_, there, c, issued, rfl⟩ := exists_of_getElem? placed place
    cases issued.symm.trans issues'
    exact .size made' place there (Nat.not_lt.mp fun small => refused ⟨⟨names, time⟩, small⟩)

end

end

section
variable (p256 : root.key.algorithm = .curve Oid.p256 ∧ ∃ number, root.key.secret = .p256 number)
  (drawn : d.IsRegular) (ascii : leafName.toList.all (·.toNat < 0x80) = true)
  (node : s.target ∈ s.graph.nodes)
include named issues p256 drawn ascii node

theorem issueEdge_eq_error_iff {entities : Entities} (made : s.entities root d = .ok entities)
    {j : Nat} {e : Edge} (position : s.graph.edges[j]? = some e) {err : Error} :
    s.issueEdge entities d leafName j e = .error err ↔
      Refused s root name d leafName j e err := by
  have declared := List.mem_of_getElem? position
  obtain ⟨x, source⟩ := exists_entity made (TrustGraph.mem_nodes.mpr ⟨e, declared, Or.inl rfl⟩)
  obtain ⟨y, destination⟩ := exists_entity made (TrustGraph.destination_mem_nodes declared)
  obtain ⟨t, plain⟩ := exists_template (s := s) (d := d) ascii j e y
  by_cases broken : e ∈ s.broken
  · rw [Scenario.issueEdge, source, ok_bind, destination, ok_bind, plain, ok_bind,
      if_pos (List.contains_iff_mem.mpr broken)]
    cases reason : s.defect with
    | none =>
      constructor
      · intro h
        cases h
        exact .unexplained broken reason
      · intro refused
        cases refused with
        | unexplained _ _ => rfl
        | undecodable _ sha1 _ => cases reason.symm.trans sha1
    | some defect =>
      cases defect with
      | deprecatedCrypto =>
        have secret : ∃ number, (t.issue x.issuer y.key).issuer.key.secret = .p256 number :=
          secret_of_get made p256.2 drawn.keys source
        refine (Issued.resign_eq_error_iff
          (isRegular_issue made p256 drawn destination plain x.issuer) secret).trans ?_
        rw [← undecodable_iff named issues made source destination plain ascii node position]
        constructor
        · rintro ⟨undecodable, rfl⟩
          exact .undecodable broken reason undecodable
        · intro refused
          cases refused with
          | unexplained _ unknown => cases reason.symm.trans unknown
          | undecodable _ _ undecodable => exact ⟨undecodable, rfl⟩
      | expired | nameConstraints | badEku | missingBasicConstraints | notACa =>
        constructor
        · intro h
          cases h
        · intro refused
          cases refused with
          | unexplained _ unknown => cases reason.symm.trans unknown
          | undecodable _ sha1 _ => cases reason.symm.trans sha1
  · rw [issueEdge_of_sound broken source destination plain]
    constructor
    · intro h
      cases h
    · intro refused
      cases refused with
      | unexplained listed _ => exact absurd listed broken
      | undecodable listed _ _ => exact absurd listed broken

/-! ## Chains -/

/-- The error of a chain is that of an edge that is refused. -/
theorem refused_of_chain_eq_error {err : Error} (h : s.chain root d leafName = .error err) :
    ∃ j e, s.graph.edges[j]? = some e ∧ Refused s root name d leafName j e err := by
  obtain ⟨entities, made⟩ := exists_entities named issues (d := d) (s := s)
  obtain ⟨target, found⟩ := exists_entity made node
  rw [Scenario.chain, made, ok_bind, bind_eq_error_iff] at h
  rcases h with failed | ⟨issued, -, rest⟩
  · obtain ⟨⟨e, j⟩, member, refused⟩ := mapM_eq_error failed
    have position := List.mk_mem_zipIdx_iff_getElem?.mp member
    refine ⟨j, e, position, ?_⟩
    rcases bind_eq_error_iff.mp refused with here | ⟨c, -, impossible⟩
    · exact (issueEdge_eq_error_iff named issues p256 drawn ascii node made position).mp here
    · cases impossible
  · rw [found] at rest
    cases rest

/-- There is a chain if and only if no edge is refused. -/
theorem exists_chain_iff : (∃ chain, s.chain root d leafName = .ok chain) ↔
    ∀ j e, s.graph.edges[j]? = some e → ∀ err, ¬ Refused s root name d leafName j e err := by
  constructor
  · rintro ⟨chain, made⟩ j e position err refused
    obtain ⟨entities, _, present, -, placed, -⟩ := chain_eq_ok_iff.mp made
    obtain ⟨_, -, c, issued, -⟩ := exists_of_mem_left placed (mem_order.mpr position)
    have failed : s.issueEdge entities d leafName j e = .error err :=
      (issueEdge_eq_error_iff named issues p256 drawn ascii node present position).mpr refused
    cases issued.symm.trans failed
  · intro free
    cases made : s.chain root d leafName with
    | ok chain => exact ⟨chain, rfl⟩
    | error err =>
      obtain ⟨j, e, position, refused⟩ :=
        refused_of_chain_eq_error named issues p256 drawn ascii node made
      exact absurd refused (free j e position err)

end

end

/-! ## Scenarios that are read -/

theorem denotes_of_decode {c : Catalog} {label : String} {s : Scenario}
    (h : decode label c = .ok s) : ∃ es, Denotes c es s := by
  obtain ⟨b, m, -, read, found⟩ := decode_eq_ok_iff.mp h
  obtain ⟨es, -, rfl⟩ := Identifier.isMessage_of_ofBytes read
  exact ⟨es, resolve_ofEntries.mp found⟩

theorem Denotes.broken_subset {c : Catalog} {es : List Entry} {s : Scenario}
    (h : Denotes c es s) : ∀ e ∈ s.broken, e ∈ s.graph.edges := by
  intro e member
  obtain ⟨n, -, position⟩ := exists_of_mem_right h.broken member
  exact List.mem_of_getElem? position

theorem isTemplate_eq_true_iff {s : Scenario} :
    s.isTemplate = true ↔ s.defect = none ∧ ∃ e, e ∈ s.broken := by
  rw [Scenario.isTemplate, Bool.and_eq_true, Option.isNone_iff_eq_none, and_comm]
  cases s.broken <;> simp

/-- A template is refused for each of its broken edges, and other scenarios are refused only for a
certificate that cannot be decoded. -/
theorem Refused.cases {s : Scenario} {root : Root} {name : DistinguishedName} {d : Draws}
    {leafName : String} {j : Nat} {e : Edge} {err : Error}
    (h : Refused s root name d leafName j e err) :
    (s.isTemplate = true ∧ e ∈ s.broken ∧ err = .brokenWithoutReason e) ∨
      (s.isTemplate = false ∧ s.defect = some .deprecatedCrypto ∧ e ∈ s.broken ∧
        Undecodable s root name d leafName j e ∧ err = .certificate .undecodable) := by
  cases h with
  | unexplained broken unknown =>
    exact Or.inl ⟨isTemplate_eq_true_iff.mpr ⟨unknown, e, broken⟩, broken, rfl⟩
  | undecodable broken sha1 undecodable =>
    refine Or.inr ⟨?_, sha1, broken, undecodable, rfl⟩
    rw [Bool.eq_false_iff, ne_eq, isTemplate_eq_true_iff, sha1]
    simp

/-- Whatever is read off a label is about nodes and edges of its graph, its hint is right, and it
has a chain, whatever is drawn for it, unless it is a template or the certificate of a broken edge
is to be signed again and cannot be decoded. No other error occurs, least of all that of a node
without an entity. -/
theorem decoded_is_refused_iff {c : Catalog} {label : String} {s : Scenario} {root : Root}
    {name : DistinguishedName} {issuer : Issuer} {d : Draws} {leafName : String}
    (decoded : decode label c = .ok s) (named : root.subject = .ok name)
    (issues : root.issuer = .ok issuer)
    (p256 : root.key.algorithm = .curve Oid.p256 ∧ ∃ number, root.key.secret = .p256 number)
    (drawn : d.IsRegular) (ascii : leafName.toList.all (·.toNat < 0x80) = true) :
    (s.source ∈ s.graph.nodes ∧ s.target ∈ s.graph.nodes ∧ ∀ e ∈ s.broken, e ∈ s.graph.edges) ∧
    (s.expectFailure = true ↔ s.expected = .fail) ∧
    ((∃ err, s.chain root d leafName = .error err) ↔
      s.isTemplate = true ∨ s.defect = some .deprecatedCrypto ∧
        ∃ j e, s.graph.edges[j]? = some e ∧ e ∈ s.broken ∧
          Undecodable s root name d leafName j e) ∧
    ∀ err, s.chain root d leafName = .error err →
      (s.isTemplate = true → ∃ e ∈ s.broken, err = .brokenWithoutReason e) ∧
      (s.isTemplate = false → err = .certificate .undecodable) ∧
      ∀ node, err ≠ .unknownEntity node := by
  obtain ⟨es, denotes⟩ := denotes_of_decode decoded
  have source := List.mem_of_getElem? denotes.source
  have target := List.mem_of_getElem? denotes.target
  have inside := denotes.broken_subset
  have refused {err : Error} (h : s.chain root d leafName = .error err) :
      ∃ j e, s.graph.edges[j]? = some e ∧ Refused s root name d leafName j e err :=
    refused_of_chain_eq_error named issues p256 drawn ascii target h
  refine ⟨⟨source, target, inside⟩, ?_, ⟨?_, fun h => ?_⟩, fun err h => ?_⟩
  · rw [denotes.hint, expected_eq_fail_iff, ← Option.not_isSome_iff_eq_none, Scenario.path?,
      TrustGraph.path?_isSome]
  · rintro ⟨err, h⟩
    obtain ⟨j, e, position, why⟩ := refused h
    rcases why.cases with ⟨template, -⟩ | ⟨-, sha1, broken, undecodable, -⟩
    · exact Or.inl template
    · exact Or.inr ⟨sha1, j, e, position, broken, undecodable⟩
  · have why : ∃ j e, s.graph.edges[j]? = some e ∧
        ∃ err, Refused s root name d leafName j e err := by
      rcases h with template | ⟨sha1, j, e, position, broken, undecodable⟩
      · obtain ⟨unknown, e, broken⟩ := isTemplate_eq_true_iff.mp template
        obtain ⟨j, position⟩ := List.mem_iff_getElem?.mp (inside e broken)
        exact ⟨j, e, position, _, .unexplained broken unknown⟩
      · exact ⟨j, e, position, _, .undecodable broken sha1 undecodable⟩
    obtain ⟨j, e, position, err, why⟩ := why
    rw [exists_error_iff, exists_chain_iff named issues p256 drawn ascii target]
    exact fun free => free j e position err why
  · obtain ⟨j, e, -, why⟩ := refused h
    rcases why.cases with ⟨template, broken, rfl⟩ | ⟨other, -, -, -, rfl⟩
    · refine ⟨fun _ => ⟨e, broken, rfl⟩, fun other => ?_, fun node => Error.noConfusion⟩
      cases template.symm.trans other
    · refine ⟨fun template => ?_, fun _ => rfl, fun node => Error.noConfusion⟩
      cases template.symm.trans other

theorem isRegular_numberedDraws (first : Nat) : (numberedDraws first).IsRegular where
  keys _ := ⟨rfl, rfl⟩
  serial _ := Nat.le_add_left 1 19
  dated := by
    change ∀ time ∈ [(numberedDraws 0).notBefore, (numberedDraws 0).notAfter], _
    decide +kernel

/-- The upper edge of the linear graph is signed with SHA-1. -/
def weakUpperEdge : Scenario :=
  { Scenario.sound .linear "Trust Anchor" "EE" with
    broken := [⟨"Trust Anchor", "ICA"⟩]
    defect := some .deprecatedCrypto
    expectFailure := true }

theorem decode_weakUpperEdge : decode "BAARAARCAEASQBQ" .standard = .ok weakUpperEdge := by
  decide +kernel

/-- The upper edge is signed again for a root with an ordinary name, since the certificate is short
and it is late enough. -/
theorem decoded_is_refused_iff_of_three_kinds :
    decode "BAARAARCAEASQBQ" .standard = .ok weakUpperEdge ∧ weakUpperEdge.expected = .fail ∧
      weakUpperEdge.defect = some .deprecatedCrypto ∧
      weakUpperEdge.NamesRoot ⟨"Trust Anchor", "ICA"⟩ ∧ ∃ chain,
        weakUpperEdge.chain (namedRoot threeKinds) (numberedDraws 2) hostname = .ok chain := by
  obtain ⟨issuer, issues⟩ : ∃ issuer, (namedRoot threeKinds).issuer = .ok issuer :=
    exists_ok_of_toBool (by decide +kernel)
  have decodable : (namedRoot threeKinds).subject.map (·.isOrdinary) = .ok true := by
    decide +kernel
  obtain ⟨name, named, ordinary⟩ := map_eq_ok_iff.mp decodable
  have short : (weakUpperEdge.mended.chain (namedRoot threeKinds) (numberedDraws 2) hostname).map
      (·.links.all fun l => (l.der fun _ _ => []).length < Strict.lengthLimit) = .ok true := by
    decide +kernel
  obtain ⟨sound, made, short⟩ := map_eq_ok_iff.mp short
  obtain ⟨-, hint, refused, -⟩ := decoded_is_refused_iff decode_weakUpperEdge named issues
    ⟨rfl, 1, rfl⟩ (isRegular_numberedDraws 2)
    (show hostname.toList.all (·.toNat < 0x80) = true by decide)
  refine ⟨decode_weakUpperEdge, hint.mp rfl, rfl, Or.inl rfl, ?_⟩
  by_contra none
  rcases refused.mp (exists_error_iff.mpr none) with template | ⟨-, j, e, -, -, why⟩
  · cases template
  · cases why with
    | name _ odd => cases ordinary.symm.trans odd
    | time early => exact absurd early (by decide)
    | size made' _ place long =>
      cases made.symm.trans made'
      have least := List.all_eq_true.mp short _ (List.mem_of_getElem? place)
      exact absurd (of_decide_eq_true least) (Nat.not_lt.mpr long)

/-- A common name, and a text under a type whose identifier takes forty bytes. -/
def longType : Name :=
  [[⟨Oid.commonName, 12, Bytes.ofString "root"⟩],
    [⟨43 :: List.replicate 39 1, 12, Bytes.ofString "text"⟩]]

/-- A usable root with such a name gives no chain, although nothing is wrong with the scenario. -/
theorem weak_upper_edge_refused : ∃ name,
    decode "BAARAARCAEASQBQ" .standard = .ok weakUpperEdge ∧ weakUpperEdge.isTemplate = false ∧
      Root.ofPem (Bytes.ofString (namedRoot longType).pem) = .ok (namedRoot longType) ∧
      (namedRoot longType).key.secret = .p256 1 ∧ (namedRoot longType).subject = .ok name ∧
      weakUpperEdge.chain (namedRoot longType) (numberedDraws 2) hostname =
        .error (.certificate .undecodable) := by
  obtain ⟨issuer, issues⟩ : ∃ issuer, (namedRoot longType).issuer = .ok issuer :=
    exists_ok_of_toBool (by decide +kernel)
  obtain ⟨name, named⟩ : ∃ name, (namedRoot longType).subject = .ok name :=
    exists_ok_of_toBool (by decide +kernel)
  exact ⟨name, decode_weakUpperEdge, rfl, Root.ofPem_pem read?_ofP256_one issues, rfl, named,
    by decide +kernel⟩

end ChainConformance.PathBuilding
