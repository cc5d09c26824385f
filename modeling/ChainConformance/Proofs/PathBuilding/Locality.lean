import ChainConformance.Proofs.PathBuilding.Defects
import ChainConformance.Proofs.X509.Signing

/-!
# A defect stays where it belongs

A scenario and the same scenario without broken edges are run with the same draws. `Confined` says
for each defect how the certificate of a broken edge may differ from the one in its place there.
Proved here:

* `filter_spoil`, `filter_oid_eq`: what a defect does to the extensions of a template;
* `confined_of_finished`: the certificate of a broken edge differs in what its defect names;
* `faults_are_local`: so it is in every chain, and the certificates of sound edges do not differ.
-/

namespace ChainConformance.PathBuilding

open X509

/-- The certificates agree in the algorithm and in all that is signed, apart from the extensions
with these identifiers. -/
def AgreeBut (oids : List Bytes) (x y : Signed) : Prop :=
  x.part.without oids = y.part.without oids ∧ x.algorithm = y.algorithm

/-- The first certificate has what the defect names, and agrees with the second one in the rest. An
authority that is not said to be one has no identifier of its key, either. -/
def Defect.Confined (now : Int) (x y : Signed) : Defect → Prop
  | .expired => ∃ time < now, x.part = { y.part with notAfter := Time.encode time } ∧
      x.algorithm = y.algorithm
  | .nameConstraints => AgreeBut [Oid.nameConstraints] x y ∧
      x.part.extensionsOf Oid.nameConstraints = [⟨Oid.nameConstraints, true, decoy.encode⟩]
  | .badEku => AgreeBut [Oid.extendedKeyUsage] x y ∧
      x.part.extensionsOf Oid.extendedKeyUsage = [⟨Oid.extendedKeyUsage, false,
        Der.sequence [Der.encode 0x06 Oid.emailProtection]⟩]
  | .missingBasicConstraints => AgreeBut [Oid.basicConstraints, Oid.subjectKeyId] x y ∧
      x.part.extensionsOf Oid.basicConstraints = []
  | .notACa => AgreeBut [Oid.basicConstraints] x y ∧
      x.part.extensionsOf Oid.basicConstraints =
        [⟨Oid.basicConstraints, true, Der.sequence []⟩]
  | .deprecatedCrypto => x.part = { y.part with algorithm := .ecdsaWithSha1 } ∧
      x.algorithm = .ecdsaWithSha1

/-- Every certificate that is to be signed again can be: otherwise the chain is not handed out. -/
def Resignable (chain : Chain) : Prop :=
  ∀ c number, Link.issued c ∈ chain.links → c.resigned = some number →
    (Ecdsa.sign .p256 number (Sha1.digest c.part.withSha1.encode)).isSome

/-! ## Extensions -/

/-- The extensions that a defect touches. -/
def Defect.touched : Defect → List Bytes
  | .nameConstraints => [Oid.nameConstraints]
  | .badEku => [Oid.extendedKeyUsage]
  | .missingBasicConstraints => [Oid.basicConstraints, Oid.subjectKeyId]
  | .notACa => [Oid.basicConstraints]
  | .expired | .deprecatedCrypto => []

section
variable {d : Draws} {t t' : Template} {issuer : Issuer} {key : KeyPair}

/-- Templates that differ in what defects touch have the same extensions as far as a filter lets
nothing of that pass. -/
theorem filter_extensions {p : SignedExtension → Bool}
    (common : t.namesIssuerKey = t'.namesIssuerKey ∧ t.dnsNames = t'.dnsNames ∧
      t.keyUsage = t'.keyUsage ∧ t.others = t'.others)
    (purposes : t.purposeExtension.filter p = t'.purposeExtension.filter p)
    (constraints : t.constraintExtension.filter p = t'.constraintExtension.filter p)
    (role : (t.roleExtensions key).filter p = (t'.roleExtensions key).filter p) :
    (t.extensions issuer key).filter p = (t'.extensions issuer key).filter p := by
  obtain ⟨names, hosts, usage, others⟩ := common
  simp only [Template.extensions, Template.issuerKeyExtension, Template.sanExtension,
    Template.usageExtension, List.filter_append, names, hosts, usage, others, purposes,
    constraints, role]

/-- The extensions that a defect does not touch are those of the plain template. -/
theorem filter_spoil (d : Draws) (issuer : Issuer) (key : KeyPair) (defect : Defect)
    (stated : t.role ≠ .unstated) :
    ((defect.spoil d t).extensions issuer key).filter (·.oid ∉ defect.touched) =
      (t.extensions issuer key).filter (·.oid ∉ defect.touched) := by
  cases defect with
  | expired | deprecatedCrypto => rfl
  | nameConstraints =>
    refine filter_extensions ⟨rfl, rfl, rfl, rfl⟩ rfl ?_ rfl
    cases none : t.constraints <;>
      simp [Template.constraintExtension, Defect.touched, Defect.spoil, none]
  | badEku =>
    refine filter_extensions ⟨rfl, rfl, rfl, rfl⟩ ?_ rfl rfl
    cases none : t.purposes <;>
      simp [Template.purposeExtension, Defect.touched, Defect.spoil, none]
  | missingBasicConstraints =>
    refine filter_extensions ⟨rfl, rfl, rfl, rfl⟩ rfl rfl ?_
    cases role : t.role <;> simp [Template.roleExtensions, Defect.touched, Defect.spoil, role]
  | notACa =>
    refine filter_extensions ⟨rfl, rfl, rfl, rfl⟩ rfl rfl ?_
    cases role : t.role with
    | unstated => exact absurd role stated
    | _ =>
      simp [Template.roleExtensions, Defect.touched, Defect.spoil, Issued.extension_oids, role]

/-- Each part of a template that a defect can touch has identifiers of its own. -/
theorem filter_oid_eq (issuer : Issuer) (key : KeyPair) (plain : t.others = []) :
    (t.extensions issuer key).filter (·.oid = Oid.nameConstraints) = t.constraintExtension ∧
      (t.extensions issuer key).filter (·.oid = Oid.extendedKeyUsage) = t.purposeExtension ∧
      (t.extensions issuer key).filter (·.oid = Oid.basicConstraints) =
        (t.roleExtensions key).filter (·.oid = Oid.basicConstraints) := by
  simp only [Template.extensions, Template.issuerKeyExtension, Template.sanExtension,
    Template.usageExtension, Template.purposeExtension, Template.constraintExtension,
    Template.roleExtensions, plain]
  cases t.role <;> simp [Issued.extension_oids, apply_ite (List.filter _)]

theorem agreeBut_of_filter {oids : List Bytes} (sign : KeyPair → Bytes → Bytes)
    (rest : (t.issue issuer key).part =
      { (t'.issue issuer key).part with extensions := some (t.extensions issuer key) })
    (kept : (t.extensions issuer key).filter (·.oid ∉ oids) =
      (t'.extensions issuer key).filter (·.oid ∉ oids)) :
    AgreeBut oids ((t.issue issuer key).signed sign) ((t'.issue issuer key).signed sign) := by
  refine ⟨?_, rfl⟩
  change (t.issue issuer key).part.without oids = (t'.issue issuer key).part.without oids
  rw [rest, SignedPart.without, Option.map_some, kept]
  rfl

/-! ## Certificates -/

section
variable {s : Scenario} {e : Edge} {c : Issued} {defect : Defect}

/-- The certificate of a broken edge differs from one that is issued as it is in nothing but what
the defect names. -/
theorem confined_of_finished (finished : Finished d s e t issuer key c) (broken : e ∈ s.broken)
    (reason : s.defect = some defect) (stated : t.role ≠ .unstated) (plain : t.others = [])
    (signs : ∀ number, c.resigned = some number →
      (Ecdsa.sign .p256 number (Sha1.digest c.part.withSha1.encode)).isSome)
    (sign : KeyPair → Bytes → Bytes) :
    defect.Confined d.now (c.signed sign) ((t.issue issuer key).signed sign) := by
  cases finished with
  | sound sound => exact absurd broken sound
  | @spoiled defect' _ reason' other =>
    rw [reason] at reason'
    cases reason'
    have kept := filter_spoil d issuer key defect stated
    obtain ⟨constraints, purposes, role⟩ :=
      filter_oid_eq issuer key ((spoil_common defect d t).2.2.trans plain)
    cases defect with
    | expired =>
      refine ⟨d.expired, ?_, rfl, rfl⟩
      unfold Draws.expired
      omega
    | nameConstraints => exact ⟨agreeBut_of_filter sign rfl kept, constraints⟩
    | badEku => exact ⟨agreeBut_of_filter sign rfl kept, purposes⟩
    | missingBasicConstraints => exact ⟨agreeBut_of_filter sign rfl kept, role⟩
    | notACa =>
      refine ⟨agreeBut_of_filter sign rfl kept, role.trans ?_⟩
      simp [Template.roleExtensions, Defect.spoil, Issued.extension_oids]
    | deprecatedCrypto => exact absurd rfl other
  | @resigned number _ reason' _ =>
    rw [reason] at reason'
    cases reason'
    exact Issued.signed_of_resigned sign rfl (signs number rfl)

end

end

/-! ## The chain -/

section
variable {root : Root} {d : Draws} {leafName : String} {s : Scenario}

/-- The certificate of an edge and the one in its place without broken edges: both come of one
template, the latter as it is. -/
theorem finished_of_issueEdge_mended {entities : Entities} {j : Nat} {e : Edge} {c c' : Issued}
    (issues : s.issueEdge entities d leafName j e = .ok c)
    (issues' : s.mended.issueEdge entities d leafName j e = .ok c') :
    ∃ t issuer key, t.role ≠ .unstated ∧ t.others = [] ∧ Finished d s e t issuer key c ∧
      c' = t.issue issuer key := by
  obtain ⟨issuer, subject, t, source, destination, template, finished⟩ :=
    finished_of_issueEdge issues
  obtain ⟨_, _, _, source', destination', template', finished'⟩ := finished_of_issueEdge issues'
  rw [source] at source'
  rw [destination] at destination'
  cases source'
  cases destination'
  have same := template.symm.trans template'
  cases same
  refine ⟨t, issuer.issuer, subject.key, ?_, (template_common template).1, finished, ?_⟩
  · by_cases ends : e.destination = s.target
    · rw [template_leaf template ends]
      simp
    · rw [template_inner template ends]
      simp [Template.authority]
  · cases finished' with
    | sound => rfl
    | spoiled broken | resigned broken => exact absurd broken List.not_mem_nil

/-- Without broken edges and with the same draws there is a chain for the same key, in which the
certificate of a sound edge is the same. That of a broken edge differs in what the defect names. -/
theorem faults_are_local {chain : Chain} {defect : Defect}
    (made : s.chain root d leafName = .ok chain) (signs : Resignable chain)
    (reason : s.defect = some defect) :
    ∃ sound, s.mended.chain root d leafName = .ok sound ∧ sound.key = chain.key ∧
      sound.links.length = chain.links.length ∧
      ∀ (i : Nat) (l : Link), chain.links[i]? = some l →
        ∃ (e : Edge) (j : Nat) (c c' : Issued), s.order[i]? = some (e, j) ∧ l = .issued c ∧
          sound.links[i]? = some (.issued c') ∧ (e ∉ s.broken → c = c') ∧
          (e ∈ s.broken → ∀ sign, defect.Confined d.now (c.signed sign) (c'.signed sign)) := by
  obtain ⟨sound, made'⟩ := exists_mended_chain made d
  obtain ⟨entities, target, present, found, placed, key⟩ := chain_eq_ok_iff.mp made
  obtain ⟨entities', target', present', found', placed', key'⟩ := chain_eq_ok_iff.mp made'
  have same : entities = entities' := Except.ok.inj (present.symm.trans present')
  subst same
  refine ⟨sound, made', ?_, ?_, ?_⟩
  · rw [key, key', Except.ok.inj (found.symm.trans found')]
  · rw [← placed.length_eq, ← placed'.length_eq]
    rfl
  · intro i l place
    obtain ⟨⟨e, j⟩, position, c, issues, rfl⟩ := exists_of_getElem? placed.flip place
    obtain ⟨_, place', c', issues', rfl⟩ := exists_of_getElem? placed' position
    obtain ⟨t, issuer, key, stated, plain, finished, rfl⟩ :=
      finished_of_issueEdge_mended issues issues'
    refine ⟨e, j, c, _, position, rfl, place', fun intact => ?_, fun broken sign => ?_⟩
    · cases finished with
      | sound => rfl
      | spoiled broken | resigned broken => exact absurd broken intact
    · have present := List.mem_of_getElem? place
      exact confined_of_finished finished broken reason stated plain (signs c · present) sign

/-- With another defect than SHA-1 nothing is to be signed again. -/
theorem resignable_of_ne {chain : Chain} (made : s.chain root d leafName = .ok chain)
    (other : s.defect ≠ some .deprecatedCrypto) : Resignable chain := by
  intro c number present again
  obtain ⟨entities, -, -, -, placed, -⟩ := chain_eq_ok_iff.mp made
  obtain ⟨_, -, c', issues, same⟩ := exists_of_mem_right placed present
  cases same
  obtain ⟨_, _, _, -, -, -, finished⟩ := finished_of_issueEdge issues
  cases finished with
  | sound | spoiled => cases again
  | resigned _ reason => exact absurd reason other

end

/-- In the chain of the detour the certificate for the direct way differs in its end, which has
passed. -/
theorem faults_are_local_of_detour : ∃ (chain sound : Chain) (c c' : Issued),
    detour.chain unsignedRoot (numberedDraws 0) hostname = .ok chain ∧ Resignable chain ∧
      detour.mended.chain unsignedRoot (numberedDraws 0) hostname = .ok sound ∧
      chain.links[2]? = some (.issued c) ∧ sound.links[2]? = some (.issued c') ∧
      ∀ sign, Defect.expired.Confined (numberedDraws 0).now (c.signed sign) (c'.signed sign) := by
  have succeeds : (detour.chain unsignedRoot (numberedDraws 0) hostname).toBool = true := by
    decide +kernel
  obtain ⟨chain, made⟩ := exists_ok_of_toBool succeeds
  have signs := resignable_of_ne made (by simp [detour])
  obtain ⟨sound, made', -, -, places⟩ := faults_are_local made signs rfl
  have bound : 2 < chain.links.length := by
    rw [length_links made]
    decide
  obtain ⟨e, j, c, c', position, issued, place', -, confined⟩ :=
    places 2 _ (List.getElem?_eq_getElem bound)
  have direct : detour.order[2]? = some (⟨"R", "I"⟩, 2) := by decide +kernel
  rw [direct] at position
  cases position
  refine ⟨chain, sound, c, c', made, signs, made', ?_, place', confined (by decide)⟩
  rw [List.getElem?_eq_getElem bound, issued]

end ChainConformance.PathBuilding
