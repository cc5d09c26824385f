import ChainConformance.PathBuilding.Synthesis
import ChainConformance.Proofs.Outcome
import ChainConformance.Proofs.TrustGraph.Nodes
import ChainConformance.Proofs.X509.Issued

/-!
# The certificates of a chain

What the synthesis of a path-building chain does, edge by edge. `IssuedAlong` says all that the
certificate of an edge can be. Proved here:

* `entity_of_get`, `node_eq_of_key`: who a node stands for, and that keys tell nodes apart;
* `finished_of_issueEdge`, `issuedAlong_of_issueEdge`: what the certificate of an edge is;
* `usable_of_sound`, `isAuthority_of_sound`, `namesHost_of_sound`: what holds for a sound edge;
* `not_usable_of_broken`: the certificate of a broken edge is of no use to a client as an authority.
-/

namespace ChainConformance.PathBuilding

open X509

/-- The keys that are drawn for the nodes differ from each other and from the root's. -/
def DistinctKeys (root : Root) (d : Draws) (s : Scenario) : Prop :=
  (∀ i < s.graph.nodes.length, ∀ j < s.graph.nodes.length, d.key i = d.key j → i = j) ∧
    ∀ i < s.graph.nodes.length, d.key i ≠ root.key

/-- What the certificate of an edge can be: the plain template, or the template with the defect of
the scenario, issued by the source for the destination. -/
structure IssuedAlong (entities : Entities) (d : Draws) (leafName : String) (s : Scenario)
    (e : Edge) (c : Issued) : Prop where
  source : ∃ issuer, entities.get e.source = .ok issuer ∧ c.issuer = issuer.issuer
  destination : ∃ subject, entities.get e.destination = .ok subject ∧
    c.subjectKey = subject.key ∧ ∃ j t, s.template d leafName j e subject = .ok t ∧
      ((e ∉ s.broken ∧ c.template = t ∧ c.resigned = none) ∨
        (e ∈ s.broken ∧ ∃ defect, s.defect = some defect ∧ c.template = defect.spoil d t ∧
          (c.resigned.isSome ↔ defect = .deprecatedCrypto)))

/-! ## Entities -/

section
variable {root : Root} {d : Draws} {s : Scenario} {entities : Entities}
  (made : s.entities root d = .ok entities)
include made

theorem entity_of_get {node : String} {x : Entity} (found : entities.get node = .ok x) :
    ∃ i, s.graph.nodes[i]? = some node ∧
      ((node = s.source ∧ Entity.ofRoot root = .ok x) ∨
        (node ≠ s.source ∧ x = Entity.fresh d i node)) := by
  rw [Entities.get] at found
  split at found
  · next entry first =>
    cases found
    have named : entry.1 = node := by simpa using List.find?_some first
    have member := List.mem_of_find?_eq_some first
    obtain ⟨⟨other, i⟩, position, h⟩ := exists_of_mem_right (mapM_eq_ok_iff.mp made) member
    refine ⟨i, ?_⟩
    by_cases source : other = s.source
    · simp only [if_pos source] at h
      obtain ⟨x, rooted, e⟩ := bind_eq_ok_iff.mp h
      cases e
      subst named
      exact ⟨List.mk_mem_zipIdx_iff_getElem?.mp position, Or.inl ⟨source, rooted⟩⟩
    · simp only [if_neg source] at h
      cases h
      subst named
      exact ⟨List.mk_mem_zipIdx_iff_getElem?.mp position, Or.inr ⟨source, rfl⟩⟩
  · cases found

/-- Every node has an entity. -/
theorem exists_entity {node : String} (member : node ∈ s.graph.nodes) :
    ∃ x, entities.get node = .ok x := by
  obtain ⟨i, position⟩ := List.mem_iff_getElem?.mp member
  obtain ⟨entry, listed, h⟩ := exists_of_mem_left (mapM_eq_ok_iff.mp made)
    (List.mk_mem_zipIdx_iff_getElem?.mpr position)
  have named : entry.1 = node := by
    split at h
    · obtain ⟨x, -, e⟩ := bind_eq_ok_iff.mp h
      cases e
      rfl
    · cases h
      rfl
  rw [Entities.get]
  cases first : entities.find? (·.1 = node) with
  | some entry => exact ⟨entry.2, rfl⟩
  | none => exact absurd (decide_eq_true named) (List.find?_eq_none.mp first entry listed)

theorem issuer_of_source {x : Entity} (found : entities.get s.source = .ok x) :
    root.issuer = .ok x.issuer := by
  obtain ⟨i, -, ⟨-, rooted⟩ | ⟨foreign, -⟩⟩ := entity_of_get made found
  · rw [Entity.ofRoot] at rooted
    obtain ⟨subject, -, h⟩ := bind_eq_ok_iff.mp rooted
    obtain ⟨issuer, issues, e⟩ := bind_eq_ok_iff.mp h
    cases e
    exact issues
  · exact absurd rfl foreign

/-- An entity other than the root is issued to under the name that it issues under. -/
theorem subject_eq_issuer {node : String} {x : Entity} (found : entities.get node = .ok x)
    (other : node ≠ s.source) : x.subject = x.issuer.name := by
  obtain ⟨i, -, ⟨source, -⟩ | ⟨-, rfl⟩⟩ := entity_of_get made found
  · exact absurd source other
  · rfl

end

theorem key_of_issuer {root : Root} {issuer : Issuer} (h : root.issuer = .ok issuer) :
    issuer.key = root.key := by
  rw [Root.issuer, Root.issuerOf] at h
  split at h
  · next c _ =>
    split at h
    · cases h
    · obtain ⟨name, -, e⟩ := bind_eq_ok_iff.mp h
      cases e
      rfl
  · cases h

section
variable {root : Root} {d : Draws} {s : Scenario} {entities : Entities}
  (made : s.entities root d = .ok entities)
include made

theorem key_of_source {x : Entity} (found : entities.get s.source = .ok x) : x.key = root.key :=
  key_of_issuer (issuer_of_source made found)

theorem key_of_other {node : String} {x : Entity} (found : entities.get node = .ok x)
    (other : node ≠ s.source) : ∃ i, s.graph.nodes[i]? = some node ∧ x.key = d.key i := by
  obtain ⟨i, position, ⟨source, -⟩ | ⟨-, rfl⟩⟩ := entity_of_get made found
  · exact absurd source other
  · exact ⟨i, position, rfl⟩

/-- The root's key is the key of the source alone. -/
theorem source_of_key (keys : DistinctKeys root d s) {node : String} {x : Entity}
    (found : entities.get node = .ok x) (key : x.key = root.key) : node = s.source := by
  by_cases source : node = s.source
  · exact source
  · obtain ⟨i, position, drawn⟩ := key_of_other made found source
    have bound := (List.getElem?_eq_some_iff.mp position).1
    exact absurd (drawn.symm.trans key) (keys.2 i bound)

/-- Keys tell nodes apart. -/
theorem node_eq_of_key (keys : DistinctKeys root d s) {a b : String} {x y : Entity}
    (first : entities.get a = .ok x) (second : entities.get b = .ok y) (same : x.key = y.key) :
    a = b := by
  by_cases source : a = s.source
  · subst source
    have key := same.symm.trans (key_of_source made first)
    exact (source_of_key made keys second key).symm
  · by_cases source' : b = s.source
    · subst source'
      have key := same.trans (key_of_source made second)
      exact source_of_key made keys first key
    · obtain ⟨i, position, key⟩ := key_of_other made first source
      obtain ⟨j, position', key'⟩ := key_of_other made second source'
      have bound := (List.getElem?_eq_some_iff.mp position).1
      have bound' := (List.getElem?_eq_some_iff.mp position').1
      rw [key, key'] at same
      rw [keys.1 i bound j bound' same, position'] at position
      exact (Option.some.inj position).symm

end

/-! ## Templates -/

section
variable {d : Draws} {leafName : String} {s : Scenario} {j : Nat} {e : Edge} {subject : Entity}
  {t : Template}

theorem template_inner (h : s.template d leafName j e subject = .ok t)
    (inner : e.destination ≠ s.target) :
    t = { Template.authority d j subject.subject with namesIssuerKey := true } := by
  rw [Scenario.template] at h
  simp only [if_neg inner] at h
  cases h
  rfl

theorem template_leaf (h : s.template d leafName j e subject = .ok t)
    (ends : e.destination = s.target) :
    t = { Template.authority d j subject.subject with
      namesIssuerKey := true
      subject := .subject (some s.target) (d.uuid (s.graph.nodes.length + j))
      dnsNames := [leafName]
      keyUsage := .digitalSignature
      purposes := [.serverAuth]
      role := .endEntity } := by
  rw [Scenario.template] at h
  simp only [if_pos ends] at h
  obtain ⟨name, ascii, e⟩ := bind_eq_ok_iff.mp h
  rw [asciiName] at ascii
  split at ascii
  · cases ascii
    cases e
    rfl
  · cases ascii

/-- What the templates of all edges share. -/
theorem template_common (h : s.template d leafName j e subject = .ok t) :
    t.others = [] ∧ t.constraints = none ∧ t.notAfter = d.notAfter := by
  by_cases ends : e.destination = s.target
  · rw [template_leaf h ends]
    exact ⟨rfl, rfl, rfl⟩
  · rw [template_inner h ends]
    exact ⟨rfl, rfl, rfl⟩

/-- What the template of an edge has from the draws. -/
theorem template_drawn (h : s.template d leafName j e subject = .ok t) :
    t.serial = d.serialNumber j ∧ t.notBefore = d.notBefore := by
  by_cases ends : e.destination = s.target
  · rw [template_leaf h ends]
    exact ⟨rfl, rfl⟩
  · rw [template_inner h ends]
    exact ⟨rfl, rfl⟩

end

/-- What no defect touches. -/
theorem spoil_common (defect : Defect) (d : Draws) (t : Template) :
    (defect.spoil d t).dnsNames = t.dnsNames ∧ (defect.spoil d t).subject = t.subject ∧
      (defect.spoil d t).others = t.others := by
  cases defect <;> exact ⟨rfl, rfl, rfl⟩

/-! ## Certificates -/

/-- The certificate of a sound edge has the plain template. -/
theorem issueEdge_of_sound {entities : Entities} {d : Draws} {leafName : String} {s : Scenario}
    {j : Nat} {e : Edge} {issuer subject : Entity} {t : Template} (sound : e ∉ s.broken)
    (source : entities.get e.source = .ok issuer)
    (destination : entities.get e.destination = .ok subject)
    (plain : s.template d leafName j e subject = .ok t) :
    s.issueEdge entities d leafName j e = .ok (t.issue issuer.issuer subject.key) := by
  rw [Scenario.issueEdge, source, ok_bind, destination, ok_bind, plain, ok_bind,
    if_neg fun listed => sound (List.contains_iff_mem.mp listed)]
  rfl

/-- What becomes of the plain template of an edge: a certificate that is issued as it is, one with
the defect of the scenario, or one that is signed again. -/
inductive Finished (d : Draws) (s : Scenario) (e : Edge) (t : Template) (issuer : Issuer)
    (key : KeyPair) : Issued → Prop
  | sound (sound : e ∉ s.broken) : Finished d s e t issuer key (t.issue issuer key)
  | spoiled {defect : Defect} (broken : e ∈ s.broken) (reason : s.defect = some defect)
      (other : defect ≠ .deprecatedCrypto) :
      Finished d s e t issuer key ((defect.spoil d t).issue issuer key)
  | resigned {number : Nat} (broken : e ∈ s.broken) (reason : s.defect = some .deprecatedCrypto)
      (secret : issuer.key.secret = .p256 number) :
      Finished d s e t issuer key { t.issue issuer key with resigned := some number }

section
variable {entities : Entities} {d : Draws} {leafName : String} {s : Scenario} {e : Edge}
  {c : Issued}

/-- The certificate of an edge is finished from the plain template, by the entity of its source for
that of its destination. -/
theorem finished_of_issueEdge {j : Nat} (h : s.issueEdge entities d leafName j e = .ok c) :
    ∃ issuer subject t, entities.get e.source = .ok issuer ∧
      entities.get e.destination = .ok subject ∧ s.template d leafName j e subject = .ok t ∧
      Finished d s e t issuer.issuer subject.key c := by
  rw [Scenario.issueEdge] at h
  obtain ⟨issuer, source, h⟩ := bind_eq_ok_iff.mp h
  obtain ⟨subject, destination, h⟩ := bind_eq_ok_iff.mp h
  obtain ⟨t, plain, h⟩ := bind_eq_ok_iff.mp h
  refine ⟨issuer, subject, t, source, destination, plain, ?_⟩
  by_cases broken : e ∈ s.broken
  · have listed : s.broken.contains e = true := List.contains_iff_mem.mpr broken
    simp only [if_pos listed] at h
    cases reason : s.defect with
    | none =>
      rw [reason] at h
      cases h
    | some defect =>
      rw [reason] at h
      cases defect with
      | deprecatedCrypto =>
        obtain ⟨number, secret, rfl⟩ := Issued.exists_number_of_resign h
        exact .resigned broken reason secret
      | _ =>
        cases h
        exact .spoiled broken reason (by simp)
  · have listed : ¬ s.broken.contains e = true := fun h => broken (List.contains_iff_mem.mp h)
    simp only [if_neg listed] at h
    cases h
    exact .sound broken

/-- All that the certificate of an edge can be. -/
theorem issuedAlong_of_issueEdge {j : Nat}
    (h : s.issueEdge entities d leafName j e = .ok c) : IssuedAlong entities d leafName s e c := by
  obtain ⟨issuer, subject, t, source, destination, plain, finished⟩ := finished_of_issueEdge h
  cases finished with
  | sound sound =>
    exact ⟨⟨issuer, source, rfl⟩, subject, destination, rfl, j, t, plain, Or.inl ⟨sound, rfl, rfl⟩⟩
  | @spoiled defect broken reason other =>
    exact ⟨⟨issuer, source, rfl⟩, subject, destination, rfl, j, t, plain,
      Or.inr ⟨broken, defect, reason, rfl, by simp [Template.issue, other]⟩⟩
  | resigned broken reason _ =>
    exact ⟨⟨issuer, source, rfl⟩, subject, destination, rfl, j, t, plain,
      Or.inr ⟨broken, .deprecatedCrypto, reason, rfl, by simp⟩⟩

/-- What the certificate of an edge has from its plain template, whether it is broken or not. -/
theorem common_of_issuedAlong (along : IssuedAlong entities d leafName s e c) :
    ∃ subject j t, entities.get e.destination = .ok subject ∧ c.subjectKey = subject.key ∧
      s.template d leafName j e subject = .ok t ∧ c.template.dnsNames = t.dnsNames ∧
      c.template.subject = t.subject ∧ c.template.others = [] := by
  obtain ⟨subject, found, key, j, t, plain, ⟨-, rfl, -⟩ | ⟨-, defect, -, spoiled, -⟩⟩ :=
    along.destination
  · exact ⟨subject, j, c.template, found, key, plain, rfl, rfl, (template_common plain).1⟩
  · obtain ⟨names, name, others⟩ := spoil_common defect d t
    rw [(template_common plain).1] at others
    rw [spoiled]
    exact ⟨subject, j, t, found, key, plain, names, name, others⟩

/-- The certificate of a sound edge has the plain template and is signed once. -/
theorem plain_of_sound (along : IssuedAlong entities d leafName s e c) (sound : e ∉ s.broken) :
    c.resigned = none ∧ ∃ subject j, entities.get e.destination = .ok subject ∧
      c.subjectKey = subject.key ∧ s.template d leafName j e subject = .ok c.template := by
  obtain ⟨subject, found, key, j, t, plain, ⟨-, rfl, once⟩ | ⟨broken, -⟩⟩ := along.destination
  · exact ⟨once, subject, j, found, key, plain⟩
  · exact absurd broken sound

theorem usable_of_sound (along : IssuedAlong entities d leafName s e c) (sound : e ∉ s.broken)
    (host : String) : c.Usable d.now host := by
  obtain ⟨once, subject, j, -, -, plain⟩ := plain_of_sound along sound
  obtain ⟨others, constraints, notAfter⟩ := template_common plain
  refine ⟨?_, ?_, ?_, Issued.not_excludesName_of_none others constraints host⟩
  · rw [notAfter]
    unfold Draws.notAfter
    omega
  · by_cases ends : e.destination = s.target
    · have one : c.template.purposes = [.serverAuth] := by rw [template_leaf plain ends]
      rw [Issued.barsServers_singleton_iff others one]
      exact fun h => h rfl
    · have none : c.template.purposes = [] := by
        rw [template_inner plain ends]
        rfl
      exact Issued.not_barsServers_of_nil others none
  · intro weak
    rw [Issued.algorithm_eq_sha1_iff, once] at weak
    cases weak

theorem isAuthority_of_sound (along : IssuedAlong entities d leafName s e c)
    (sound : e ∉ s.broken) (inner : e.destination ≠ s.target) : c.IsAuthority := by
  obtain ⟨-, subject, j, -, -, plain⟩ := plain_of_sound along sound
  rw [Issued.isAuthority_iff (template_common plain).1, template_inner plain inner]
  exact ⟨rfl, rfl⟩

theorem namesHost_of_sound (along : IssuedAlong entities d leafName s e c)
    (sound : e ∉ s.broken) (ends : e.destination = s.target) : c.NamesHost leafName := by
  obtain ⟨-, subject, j, -, -, plain⟩ := plain_of_sound along sound
  apply Issued.namesHost_of_mem (template_common plain).1
  rw [template_leaf plain ends]
  exact List.mem_singleton_self leafName

/-- The certificate of a sound edge to an inner node bears the name and the key of its entity. -/
theorem subject_of_sound {y : Entity} (along : IssuedAlong entities d leafName s e c)
    (sound : e ∉ s.broken) (inner : e.destination ≠ s.target)
    (found : entities.get e.destination = .ok y) :
    c.template.subject = y.subject ∧ c.subjectKey = y.key := by
  obtain ⟨-, subject, j, there, key, plain⟩ := plain_of_sound along sound
  rw [found] at there
  cases there
  rw [template_inner plain inner]
  exact ⟨rfl, key⟩

theorem decoy_excludes {host : String} (outside : ¬ InDomain host "bad.example.com") :
    decoy.Exclude host := by
  refine Or.inl ⟨⟨_, List.mem_singleton_self _⟩, fun domain permitted => ?_⟩
  cases List.mem_singleton.mp permitted
  exact outside

/-- Every defect makes the certificate of a broken edge useless for an authority. -/
theorem not_usable_of_broken (along : IssuedAlong entities d leafName s e c)
    (broken : e ∈ s.broken) (inner : e.destination ≠ s.target) {host : String}
    (outside : ¬ InDomain host "bad.example.com") (authority : c.IsAuthority) :
    ¬ c.Usable d.now host := by
  intro usable
  obtain ⟨subject, -, -, j, t, plain, ⟨sound, -⟩ | ⟨-, defect, -, e', again⟩⟩ := along.destination
  · exact sound broken
  · have others : c.template.others = [] := by
      rw [e', template_inner plain inner]
      cases defect <;> rfl
    rw [Issued.isAuthority_iff others] at authority
    cases defect with
    | expired =>
      apply usable.valid
      rw [e']
      show d.expired < d.now
      unfold Draws.expired
      omega
    | nameConstraints =>
      refine usable.admits (Issued.excludesName_of_some others ?_ (decoy_excludes outside))
      rw [e']
      rfl
    | badEku =>
      have one : c.template.purposes = [.emailProtection] := by
        rw [e']
        rfl
      exact usable.servers ((Issued.barsServers_singleton_iff others one).mpr (by decide))
    | missingBasicConstraints =>
      rw [e'] at authority
      cases authority.1
    | notACa =>
      rw [e'] at authority
      cases authority.1
    | deprecatedCrypto =>
      exact usable.current (Issued.algorithm_eq_sha1_iff.mpr (again.mpr rfl))

end

end ChainConformance.PathBuilding
