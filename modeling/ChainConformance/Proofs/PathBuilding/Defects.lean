import ChainConformance.Proofs.PathBuilding.Leaf
import ChainConformance.Proofs.X509.Content

/-!
# Whether a broken edge is broken

A scenario is compared with the one in which no edge is broken: the certificate of a broken edge
should say something else than that of the same edge there. Proved here:

* `exists_mended_chain`: the scenario without broken edges has a chain, whatever is drawn;
* `shows_of_broken`, `leaf_of_shows_of_sound`: the certificate of a broken edge shows its defect,
  that of a sound edge shows none, apart from a leaf, which is no authority anyhow;
* `content_eq_of_leaf`: for a leaf, to be no authority changes nothing;
* `content_eq_iff_notACa_leaf`: what follows for every broken edge of every chain.

So a failure may be expected of a chain in which nothing is wrong (`nothing_broken_of_leaf`).
-/

namespace ChainConformance.PathBuilding

open X509

/-- The scenario without broken edges. -/
def Scenario.mended (s : Scenario) : Scenario := { s with broken := [] }

section
variable {root : Root} {d d' : Draws} {leafName : String} {s : Scenario} {entities : Entities}

/-! ## The mended chain -/

theorem exists_mended_entities (made : s.entities root d = .ok entities) (d' : Draws) :
    ∃ entities', s.mended.entities root d' = .ok entities' := by
  simp only [Scenario.entities, mapM_eq_ok_iff, exists_forall₂_iff]
  rintro p member
  obtain ⟨entry, -, h⟩ := exists_of_mem_left (mapM_eq_ok_iff.mp made) member
  split
  · next source =>
    rw [if_pos (show p.1 = s.source from source)] at h
    exact ⟨entry, h⟩
  · exact ⟨_, rfl⟩

theorem exists_mended_template {j : Nat} {e : Edge} {x : Entity} {t : Template}
    (h : s.template d leafName j e x = .ok t) (d' : Draws) (j' : Nat) (x' : Entity) :
    ∃ t', s.mended.template d' leafName j' e x' = .ok t' := by
  have target : s.mended.target = s.target := rfl
  rw [Scenario.template] at h ⊢
  by_cases ends : e.destination = s.target
  · simp only [target, if_pos ends] at h ⊢
    obtain ⟨name, ascii, -⟩ := bind_eq_ok_iff.mp h
    exact ⟨_, bind_eq_ok_iff.mpr ⟨name, ascii, rfl⟩⟩
  · simp only [target, if_neg ends]
    exact ⟨_, rfl⟩

/-- There is a chain without broken edges, whatever is drawn for it. -/
theorem exists_mended_chain {chain : Chain} (made : s.chain root d leafName = .ok chain)
    (d' : Draws) : ∃ sound, s.mended.chain root d' leafName = .ok sound := by
  obtain ⟨entities, target, present, found, placed, -⟩ := chain_eq_ok_iff.mp made
  obtain ⟨entities', present'⟩ := exists_mended_entities present d'
  obtain ⟨i, position, -⟩ := entity_of_get present found
  refine exists_chain_of_sound rfl present' (List.mem_of_getElem? position) fun e declared j x => ?_
  obtain ⟨k, place⟩ := List.mem_iff_getElem?.mp declared
  obtain ⟨_, -, c, issues, -⟩ := exists_of_mem_left placed (mem_order.mpr place)
  obtain ⟨_, -, -, _, t, plain, -⟩ := (issuedAlong_of_issueEdge issues).destination
  exact exists_mended_template plain d' j x

end

/-! ## What a defect looks like -/

/-- The certificate shows the defect. -/
def Defect.Shows (d : Draws) (c : Issued) : Defect → Prop
  | .expired => c.part.notAfter = Time.encode d.expired
  | .nameConstraints => c.Carries Oid.nameConstraints decoy.encode
  | .badEku => c.Carries Oid.extendedKeyUsage
      (Der.sequence [Der.encode 0x06 Oid.emailProtection])
  | .missingBasicConstraints => ∀ value, ¬ c.Carries Oid.basicConstraints value
  | .notACa => c.Carries Oid.basicConstraints (Der.sequence [])
  | .deprecatedCrypto => c.algorithm = .ecdsaWithSha1

section
variable {entities : Entities} {d d' : Draws} {leafName : String} {s : Scenario} {e : Edge}
  {defect : Defect} {c c' : Issued}

/-- The certificate of a broken edge shows the defect. -/
theorem shows_of_broken (along : IssuedAlong entities d leafName s e c) (broken : e ∈ s.broken)
    (reason : s.defect = some defect) : defect.Shows d c := by
  obtain ⟨subject, -, -, j, t, plain, ⟨sound, -⟩ | ⟨-, _, reason', spoiled, again⟩⟩ :=
    along.destination
  · exact absurd broken sound
  rw [reason] at reason'
  cases reason'
  have others : c.template.others = [] := by
    rw [spoiled, (spoil_common defect d t).2.2, (template_common plain).1]
  cases defect with
  | expired =>
    have late : c.template.notAfter = d.expired := by
      rw [spoiled]
      rfl
    exact congrArg Time.encode late
  | nameConstraints =>
    refine (Issued.carries_iff others).mpr ?_
    simp [spoiled, Defect.spoil]
  | badEku =>
    refine (Issued.carries_iff others).mpr ?_
    simp [spoiled, Defect.spoil, Purpose.oid]
  | missingBasicConstraints =>
    intro value
    simp [Issued.carries_iff others, Issued.extension_oids, spoiled, Defect.spoil]
  | notACa =>
    refine (Issued.carries_iff others).mpr ?_
    simp [spoiled, Defect.spoil]
  | deprecatedCrypto => exact Issued.algorithm_eq_sha1_iff.mpr (again.mpr rfl)

/-- The certificate of a sound edge shows no defect, unless it is that of a leaf, which is no
authority. -/
theorem leaf_of_shows_of_sound (along : IssuedAlong entities d' leafName s e c)
    (sound : e ∉ s.broken) (time : d'.now = d.now) (shown : defect.Shows d c) :
    defect = .notACa ∧ e.destination = s.target := by
  obtain ⟨once, subject, j, -, -, plain⟩ := plain_of_sound along sound
  obtain ⟨others, constraints, notAfter⟩ := template_common plain
  cases defect with
  | expired =>
    have clocks : c.template.notAfter % 86400 = d.expired % 86400 := Time.mod_eq_of_encode_eq shown
    rw [notAfter, Draws.notAfter, Draws.expired, time] at clocks
    omega
  | nameConstraints =>
    simp [Defect.Shows, Issued.carries_iff others, Issued.extension_oids, constraints] at shown
  | badEku =>
    by_cases ends : e.destination = s.target
    · have one : c.template.purposes = [.serverAuth] := by rw [template_leaf plain ends]
      have other : Der.sequence [Der.encode 0x06 Oid.emailProtection] ≠
          Der.sequence [Der.encode 0x06 Purpose.serverAuth.oid] := by
        decide +kernel
      simp [Defect.Shows, Issued.carries_iff others, Issued.extension_oids, one, other] at shown
    · have none : c.template.purposes = [] := by
        rw [template_inner plain ends]
        rfl
      simp [Defect.Shows, Issued.carries_iff others, Issued.extension_oids, none] at shown
  | missingBasicConstraints =>
    by_cases ends : e.destination = s.target
    · have role : c.template.role = .endEntity := by rw [template_leaf plain ends]
      simp [Defect.Shows, Issued.carries_iff others, Issued.extension_oids, role] at shown
    · have role : c.template.role = .authority := by
        rw [template_inner plain ends]
        rfl
      simp [Defect.Shows, Issued.carries_iff others, Issued.extension_oids, role] at shown
  | notACa =>
    by_cases ends : e.destination = s.target
    · exact ⟨rfl, ends⟩
    · have role : c.template.role = .authority := by
        rw [template_inner plain ends]
        rfl
      have flag : Der.sequence [] ≠ Der.sequence [Der.boolean true] := by decide
      simp [Defect.Shows, Issued.carries_iff others, Issued.extension_oids, role, flag] at shown
  | deprecatedCrypto =>
    rw [Defect.Shows, Issued.algorithm_eq_sha1_iff, once] at shown
    cases shown

/-- Where one of two certificates with equal contents shows a defect, the other one does. -/
theorem shows_of_content_eq (same : c.content = c'.content) (shown : defect.Shows d c) :
    defect.Shows d c' := by
  have apart : ∀ oid ∈ [Oid.nameConstraints, Oid.extendedKeyUsage, Oid.basicConstraints],
      oid ≠ Oid.subjectKeyId ∧ oid ≠ Oid.authorityKeyId := by
    decide +kernel
  cases defect with
  | expired => exact (congrArg SignedPart.notAfter same).symm.trans shown
  | nameConstraints => exact Issued.carries_of_content_eq same (apart _ (by simp)) shown
  | badEku => exact Issued.carries_of_content_eq same (apart _ (by simp)) shown
  | missingBasicConstraints =>
    intro value carried
    exact shown value (Issued.carries_of_content_eq same.symm (apart _ (by simp)) carried)
  | notACa => exact Issued.carries_of_content_eq same (apart _ (by simp)) shown
  | deprecatedCrypto => exact (Issued.algorithm_eq_of_content_eq same).symm.trans shown

end

/-! ## The leaf that is no authority -/

section
variable {root : Root} {d d' : Draws} {leafName : String} {s : Scenario}
  {entities entities' : Entities} {e : Edge} {c c' : Issued}

/-- The entities of a node differ in what is drawn. -/
theorem entities_alike (made : s.entities root d = .ok entities)
    (made' : s.mended.entities root d' = .ok entities') (p256 : d.AreP256) (p256' : d'.AreP256)
    {node : String} {x x' : Entity} (found : entities.get node = .ok x)
    (found' : entities'.get node = .ok x') :
    x.issuer.name.toSets.map (·.map NameAttribute.settled) =
        x'.issuer.name.toSets.map (·.map NameAttribute.settled) ∧
      x.key.signsWith = x'.key.signsWith ∧ x.key.algorithm = x'.key.algorithm := by
  obtain ⟨i, -, ⟨source, rooted⟩ | ⟨other, rfl⟩⟩ := entity_of_get made found
  · obtain ⟨i', -, ⟨-, rooted'⟩ | ⟨other, -⟩⟩ := entity_of_get made' found'
    · rw [rooted] at rooted'
      cases rooted'
      exact ⟨rfl, rfl, rfl⟩
    · exact absurd source other
  · obtain ⟨i', -, ⟨source, -⟩ | ⟨-, rfl⟩⟩ := entity_of_get made' found'
    · exact absurd source other
    · exact ⟨settled_subject node _ _, (p256 i).2.trans (p256' i').2.symm,
        (p256 i).1.trans (p256' i').1.symm⟩

/-- The certificate of a leaf that is said to be no authority has the plain template. -/
theorem plain_of_leaf (along : IssuedAlong entities d leafName s e c)
    (reason : s.defect = some .notACa) (ends : e.destination = s.target) :
    c.resigned = none ∧ ∃ subject j, entities.get e.destination = .ok subject ∧
      c.subjectKey = subject.key ∧ s.template d leafName j e subject = .ok c.template := by
  obtain ⟨subject, found, key, j, t, plain, ⟨-, rfl, once⟩ | ⟨-, _, reason', spoiled, again⟩⟩ :=
    along.destination
  · exact ⟨once, subject, j, found, key, plain⟩
  · rw [reason] at reason'
    cases reason'
    have once : c.resigned = none := by simpa using again
    have same : c.template = t := by
      rw [spoiled, template_leaf plain ends]
      rfl
    exact ⟨once, subject, j, found, key, same ▸ plain⟩

/-- A leaf says nothing else if its defect is to be no authority. -/
theorem content_eq_of_leaf (made : s.entities root d = .ok entities)
    (made' : s.mended.entities root d' = .ok entities') (p256 : d.AreP256) (p256' : d'.AreP256)
    (time : d'.now = d.now) (along : IssuedAlong entities d leafName s e c)
    (along' : IssuedAlong entities' d' leafName s.mended e c') (reason : s.defect = some .notACa)
    (ends : e.destination = s.target) : c.content = c'.content := by
  obtain ⟨once, subject, j, found, key, plain⟩ := plain_of_leaf along reason ends
  obtain ⟨once', subject', j', found', key', plain'⟩ := plain_of_leaf along' reason ends
  obtain ⟨issuer, source, issued⟩ := along.source
  obtain ⟨issuer', source', issued'⟩ := along'.source
  obtain ⟨names, signs, -⟩ := entities_alike made made' p256 p256' source source'
  obtain ⟨-, -, certifies⟩ := entities_alike made made' p256 p256' found found'
  have begins : d'.notBefore = d.notBefore := by rw [Draws.notBefore, Draws.notBefore, time]
  have expires : d'.notAfter = d.notAfter := by rw [Draws.notAfter, Draws.notAfter, time]
  apply Issued.content_eq_of_alike once once'
  · rw [issued, issued', names]
  · rw [issued, issued']
    exact signs
  · rw [key, key', certifies]
  · rw [template_leaf plain ends, template_leaf plain' ends]
    exact settled_subject s.target _ _
  · rw [template_leaf plain ends, template_leaf plain' ends]
    simp only [Template.authority, begins, expires]

/-! ## All broken edges -/

/-- Without broken edges there is a chain, too, and the certificate of a broken edge says something
else than the one in its place there, unless the edge leads to the target and its defect is to be no
authority. In that case it says the same. -/
theorem content_eq_iff_notACa_leaf {chain : Chain} {defect : Defect}
    (made : s.chain root d leafName = .ok chain) (reason : s.defect = some defect)
    (p256 : d.AreP256) (p256' : d'.AreP256) (time : d'.now = d.now) :
    ∃ sound, s.mended.chain root d' leafName = .ok sound ∧
      ∀ (j : Nat) (e : Edge), s.graph.edges[j]? = some e → e ∈ s.broken →
        ∃ (i : Nat) (c c' : Issued), s.order[i]? = some (e, j) ∧
          chain.links[i]? = some (Link.issued c) ∧ sound.links[i]? = some (Link.issued c') ∧
          (c.content = c'.content ↔ defect = .notACa ∧ e.destination = s.target) := by
  obtain ⟨sound, made'⟩ := exists_mended_chain made d'
  obtain ⟨entities, -, present, -, placed, -⟩ := chain_eq_ok_iff.mp made
  obtain ⟨entities', -, present', -, placed', -⟩ := chain_eq_ok_iff.mp made'
  refine ⟨sound, made', fun j e declared broken => ?_⟩
  obtain ⟨i, position⟩ := List.mem_iff_getElem?.mp (mem_order.mpr declared)
  obtain ⟨_, place, c, issues, rfl⟩ := exists_of_getElem? placed position
  obtain ⟨_, place', c', issues', rfl⟩ := exists_of_getElem? placed' position
  have along := issuedAlong_of_issueEdge issues
  have along' := issuedAlong_of_issueEdge issues'
  refine ⟨i, c, c', position, place, place', fun same => ?_, ?_⟩
  · have shown := shows_of_content_eq same (shows_of_broken along broken reason)
    exact leaf_of_shows_of_sound (s := s.mended) along' List.not_mem_nil time shown
  · rintro ⟨rfl, ends⟩
    exact content_eq_of_leaf present present' p256 p256' time along along' reason ends

end

/-- The certificate for the direct way to the first intermediate says something else than it would
if the edge were sound, also with other keys. -/
theorem content_ne_of_detour : ∃ (chain sound : Chain) (i : Nat) (c c' : Issued),
    detour.chain unsignedRoot (numberedDraws 0) hostname = .ok chain ∧
      detour.mended.chain unsignedRoot (numberedDraws 20) hostname = .ok sound ∧
      detour.order[i]? = some (⟨"R", "I"⟩, 2) ∧ chain.links[i]? = some (Link.issued c) ∧
      sound.links[i]? = some (Link.issued c') ∧ c.content ≠ c'.content := by
  have succeeds : (detour.chain unsignedRoot (numberedDraws 0) hostname).toBool = true := by
    decide +kernel
  cases made : detour.chain unsignedRoot (numberedDraws 0) hostname with
  | error e =>
    rw [made] at succeeds
    cases succeeds
  | ok chain =>
    obtain ⟨sound, made', differ⟩ := content_eq_iff_notACa_leaf made rfl (fun _ => ⟨rfl, rfl⟩)
      (fun _ => ⟨rfl, rfl⟩) (show (numberedDraws 20).now = (numberedDraws 0).now from rfl)
    obtain ⟨i, c, c', position, place, place', same⟩ :=
      differ 2 ⟨"R", "I"⟩ (by decide) (by decide)
    refine ⟨chain, sound, i, c, c', rfl, made', position, place, place', fun equal => ?_⟩
    cases (same.mp equal).1

/-- The label of a scenario whose only way has a broken end: a failure is expected, but the chain is
the same as if nothing were broken. -/
theorem nothing_broken_of_leaf : ∃ s chain c,
    decode "BAARAARCAEACQBI" .standard = .ok s ∧ s.defect = some .notACa ∧
      s.order[0]? = some (⟨"ICA", "EE"⟩, 0) ∧ ⟨"ICA", "EE"⟩ ∈ s.broken ∧
      s.chain unsignedRoot (numberedDraws 0) hostname = .ok chain ∧
      s.mended.chain unsignedRoot (numberedDraws 0) hostname = .ok chain ∧
      chain.links[0]? = some (Link.issued c) ∧ s.expected = .fail := by
  let s : Scenario := { Scenario.sound .linear "Trust Anchor" "EE" with
    broken := [⟨"ICA", "EE"⟩]
    defect := some .notACa
    expectFailure := true }
  have succeeds : (s.chain unsignedRoot (numberedDraws 0) hostname).toBool = true := by
    decide +kernel
  have same : s.chain unsignedRoot (numberedDraws 0) hostname =
      s.mended.chain unsignedRoot (numberedDraws 0) hostname := by
    decide +kernel
  cases made : s.chain unsignedRoot (numberedDraws 0) hostname with
  | error e =>
    rw [made] at succeeds
    cases succeeds
  | ok chain =>
    obtain ⟨-, -, -, c, others, -, -, links, -⟩ := exists_first made
    refine ⟨s, chain, c, by decide +kernel, rfl, by decide +kernel, by decide +kernel, made,
      same ▸ made, ?_, by decide +kernel⟩
    rw [links]
    rfl

end ChainConformance.PathBuilding
