import ChainConformance.Proofs.Crypto.KeyPair
import ChainConformance.Proofs.PathBuilding.Linking
import ChainConformance.Proofs.Root

/-!
# The root's name in its chains

The source of a scenario stands for the root. What is issued to it bears the root's name as
subject, what it issues bears it as issuer, and this is the name that the root's certificate says,
as long as no attribute type comes up twice. Proved here:

* `bearsName_of_chain`: which certificates bear the root's name;
* `root_name_kept_iff`: what that name is, and when it is the one of the root's certificate;
* `root_name_lost`: a root with two organizational units loses one of them.
-/

namespace ChainConformance.PathBuilding

open X509 DistinguishedName

/-- The certificate of an edge bears a name on the sides on which the source stands. -/
def BearsName (sign : KeyPair → Bytes → Bytes) (name : List (List NameAttribute)) (s : Scenario)
    (p : Edge × Nat) (l : Link) : Prop :=
  ∃ c, l = .issued c ∧
    (p.1.destination = s.source → (c.signed sign).part.subject = name) ∧
    (p.1.source = s.source → (c.signed sign).part.issuer = name)

theorem bearsName_of_chain {root : Root} {d : Draws} {leafName : String} {s : Scenario}
    {chain : Chain} {name : DistinguishedName} {issuer : Issuer}
    (made : s.chain root d leafName = .ok chain) (apart : s.source ≠ s.target)
    (named : root.subject = .ok name) (issues : root.issuer = .ok issuer)
    (sign : KeyPair → Bytes → Bytes) :
    List.Forall₂ (BearsName sign name.toSets s) s.order chain.links := by
  obtain ⟨entities, target, present, -, placed, -⟩ := chain_eq_ok_iff.mp made
  have cast := exists_cast present target
  refine placed.imp ?_
  rintro ⟨e, j⟩ l ⟨c, issued, rfl⟩
  have binds : Binds sign (entities.at target) leafName s e (c.signed sign) :=
    binds_of_issueEdge issued target
  obtain ⟨x, y, -, found, found', -, -⟩ := finished_of_issueEdge issued
  refine ⟨c, rfl, fun arrives => ?_, fun leaves => ?_⟩
  · obtain ⟨i, node, -⟩ := entity_of_get present found'
    have member : s.source ∈ s.graph.nodes := arrives ▸ List.mem_of_getElem? node
    have subject := cast.subject member
    rw [named] at subject
    rw [binds.inner fun ends => apart (arrives.symm.trans ends), arrives, Except.ok.inj subject]
  · obtain ⟨i, node, -⟩ := entity_of_get present found
    have member : s.source ∈ s.graph.nodes := leaves ▸ List.mem_of_getElem? node
    have issuer' := cast.issuer member
    rw [issues] at issuer'
    rw [binds.issuer, leaves, ← Except.ok.inj issuer', (Root.subject_of_issuer named issues).1]

/-- The name of a root that is read from a bundle is written as in the root's certificate if and
only if the attribute types there have plain identifiers and are distinct; in any case it has every
type once, in the order in which they come up, with the last value of each. Every chain bears that
name wherever the source stands, if the source is not the target. -/
theorem root_name_kept_iff {input : Bytes} {root : Root} {name : DistinguishedName}
    (read : Root.ofPem input = .ok root) (named : root.subject = .ok name) :
    ∃ certificate, Certificate.read? root.certificate = some certificate ∧
      (name.toSets = certificate.subject.written ↔
        (∀ a ∈ certificate.subject.flatten, Oid.IsPlain a.oid) ∧
          (certificate.subject.flatten.map (·.oid)).Nodup) ∧
      (∃ parts, List.Forall₂ Restates certificate.subject.flatten parts ∧
        name.parts.map (·.oid) = (parts.map (·.oid)).reverse.dedup.reverse ∧
        ∀ p, p ∈ name.parts ↔
          ∃ before after, parts = before ++ p :: after ∧ ∀ q ∈ after, q.oid ≠ p.oid) ∧
      ∀ (s : Scenario) (d : Draws) (leafName : String) (chain : Chain)
        (sign : KeyPair → Bytes → Bytes), s.source ≠ s.target →
        s.chain root d leafName = .ok chain →
        List.Forall₂ (BearsName sign name.toSets s) s.order chain.links := by
  obtain ⟨_, _, issuer, -, -, -, -, issues⟩ := Root.ofPem_eq_ok_iff.mp read
  obtain ⟨-, c, certificate, single, parts, restated, left⟩ := Root.subject_of_issuer named issues
  refine ⟨c, certificate, ?_, ⟨parts, restated, ?_, fun p => ?_⟩, ?_⟩
  · rw [single]
    have attributes : (c.subject.flatten.map ([·])).flatten = c.subject.flatten := by rw [← single]
    rw [attributes]
    exact toSets_eq_written_iff restated left
  · rw [left, map_oid_collected]
  · rw [left, mem_collected]
  · intro s d leafName chain sign apart made
    exact bearsName_of_chain made apart named issues sign

/-! ## Roots with names of their own -/

/-- A root whose certificate has the name as issuer and as subject. -/
def namedRoot (name : Name) : Root :=
  let key := KeyPair.ofP256 1
  let certificate : Signed := {
    part := {
      version := 2
      serial := [1]
      algorithm := key.signsWith
      issuer := name.written
      notBefore := Time.encode 0
      notAfter := Time.encode 2000000000
      subject := name.written
      keyAlgorithm := key.algorithm
      key := 0 :: key.publicBits
      issuerId := none
      subjectId := none
      extensions := none }
    algorithm := key.signsWith
    signature := [0] }
  ⟨certificate.encode, key⟩

theorem read?_ofP256_one : KeyPair.read? (KeyPair.ofP256 1).pkcs8 = some (KeyPair.ofP256 1) :=
  KeyPair.read?_ofP256 (by decide) (by decide)

/-- The source issues to an intermediate, and gets a certificate from it. -/
def crossSigned : Scenario :=
  .sound (.ofPairs "CROSS_SIGNED" [("R", "I"), ("I", "R"), ("I", "E")]) "R" "E"

/-- One attribute of each string type that a subject takes. -/
def threeKinds : Name :=
  [[⟨Oid.domainComponent, 22, Bytes.ofString "example"⟩],
    [⟨Oid.organizationalUnit, 12, Bytes.ofString "unit"⟩],
    [⟨Oid.commonName, 19, Bytes.ofString "root"⟩]]

/-- The leaf's certificate comes first; the root issues the second one and gets the third. -/
theorem root_name_kept_of_three_kinds : ∃ name chain,
    Root.ofPem (Bytes.ofString (namedRoot threeKinds).pem) = .ok (namedRoot threeKinds) ∧
      (namedRoot threeKinds).subject = .ok name ∧ name.toSets = threeKinds.written ∧
      crossSigned.chain (namedRoot threeKinds) (numberedDraws 2) hostname = .ok chain ∧
      List.Forall₂ (BearsName (fun _ _ => []) threeKinds.written crossSigned)
        [(⟨"I", "E"⟩, 2), (⟨"R", "I"⟩, 0), (⟨"I", "R"⟩, 1)] chain.links := by
  obtain ⟨issuer, issues⟩ : ∃ issuer, (namedRoot threeKinds).issuer = .ok issuer :=
    exists_ok_of_toBool (by decide +kernel)
  obtain ⟨name, named⟩ : ∃ name, (namedRoot threeKinds).subject = .ok name :=
    exists_ok_of_toBool (by decide +kernel)
  obtain ⟨chain, made⟩ : ∃ chain,
      crossSigned.chain (namedRoot threeKinds) (numberedDraws 2) hostname = .ok chain :=
    exists_ok_of_toBool (by decide +kernel)
  have subject : (Certificate.read? (namedRoot threeKinds).certificate).map (·.subject) =
      some threeKinds := by decide +kernel
  have read := Root.ofPem_pem read?_ofP256_one issues
  obtain ⟨certificate, h, kept, -, chains⟩ := root_name_kept_iff read named
  rw [h, Option.map_some, Option.some.injEq] at subject
  rw [subject] at kept
  have whole : name.toSets = threeKinds.written := by
    refine kept.mpr ⟨fun a member => ?_, by decide +kernel⟩
    have short : ∀ a ∈ threeKinds.flatten, normalOid? a.oid = some a.oid := by decide +kernel
    exact Oid.normalOid?_eq_self_iff.mp (short a member)
  have bears := chains crossSigned (numberedDraws 2) hostname chain (fun _ _ => []) (by decide) made
  exact ⟨name, chain, read, named, whole, made, whole ▸ bears⟩

/-- A unit, a common name and another unit. -/
def twoUnits : Name :=
  [[⟨Oid.organizationalUnit, 12, Bytes.ofString "one"⟩],
    [⟨Oid.commonName, 12, Bytes.ofString "root"⟩],
    [⟨Oid.organizationalUnit, 12, Bytes.ofString "two"⟩]]

/-- The second unit replaces the first one, and what the root issues cannot be traced to the name in
its certificate. -/
theorem root_name_lost : ∃ name certificate chain c,
    Root.ofPem (Bytes.ofString (namedRoot twoUnits).pem) = .ok (namedRoot twoUnits) ∧
      (namedRoot twoUnits).subject = .ok name ∧
      Certificate.read? (namedRoot twoUnits).certificate = some certificate ∧
      certificate.subject = twoUnits ∧ name.toSets ≠ twoUnits.written ∧
      crossSigned.chain (namedRoot twoUnits) (numberedDraws 2) hostname = .ok chain ∧
      crossSigned.order[1]? = some (⟨"R", "I"⟩, 0) ∧ chain.links[1]? = some (.issued c) ∧
      ∀ sign, (c.signed sign).part.issuer ≠ twoUnits.written := by
  obtain ⟨issuer, issues⟩ : ∃ issuer, (namedRoot twoUnits).issuer = .ok issuer :=
    exists_ok_of_toBool (by decide +kernel)
  have taken : (namedRoot twoUnits).subject.map (·.toSets) =
      .ok (Name.written [twoUnits[2], twoUnits[1]]) := by decide +kernel
  obtain ⟨name, named, sets⟩ := map_eq_ok_iff.mp taken
  have subject : (Certificate.read? (namedRoot twoUnits).certificate).map (·.subject) =
      some twoUnits := by decide +kernel
  obtain ⟨certificate, read, whole⟩ := Option.map_eq_some_iff.mp subject
  obtain ⟨chain, made⟩ : ∃ chain,
      crossSigned.chain (namedRoot twoUnits) (numberedDraws 2) hostname = .ok chain :=
    exists_ok_of_toBool (by decide +kernel)
  have lost : name.toSets ≠ twoUnits.written := by
    rw [sets]
    decide +kernel
  have place : crossSigned.order[1]? = some (⟨"R", "I"⟩, 0) := by decide +kernel
  have bears := bearsName_of_chain made (by decide) named issues
  obtain ⟨l, position, c, rfl, -, -⟩ := exists_of_getElem? (bears fun _ _ => []) place
  refine ⟨name, certificate, chain, c, Root.ofPem_pem read?_ofP256_one issues, named, read, whole,
    lost, made, place, position, fun sign kept => ?_⟩
  obtain ⟨_, position', c', rfl, -, issued⟩ := exists_of_getElem? (bears sign) place
  cases position.symm.trans position'
  exact lost ((issued rfl).symm.trans kept)

end ChainConformance.PathBuilding
