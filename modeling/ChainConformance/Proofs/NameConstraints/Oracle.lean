import ChainConformance.NameConstraints.Oracle
import ChainConformance.NameConstraints.Synthesis
import ChainConformance.Proofs.NameConstraints.Verdict

/-!
# The oracle on what is emitted

`Fixture.expected` is computed from the qualities of the names and trees of a fixture. Here it is
shown to be the verdict on the names and trees themselves:

* `nameOf?`: the name of a kind and quality; `nameOf?_hostname`, `nameOf?_commonName`,
  `names?_sanBytes`: where the names of a fixture are found;
* `any_isExcludedBy`: the constraints of a fixture exclude the names that the oracle says;
* `expected_eq`: the oracle as a decision, without its contradiction;
* `expected_eq_verdict`: the oracle and the verdict agree.
-/

namespace ChainConformance.NameConstraints

open X509

/-- The name of a kind that is valid or invalid. -/
def nameOf? : NameKind → Quality → Option GeneralName
  | _, .absent => none
  | .dns, .valid => some (.dns (Bytes.ofString validDnsName))
  | .dns, .invalid => some (.dns (Bytes.ofString invalidDnsName))
  | .ip, .valid => some (.ip validIp)
  | .ip, .invalid => some (.ip invalidIp)

theorem nameOf?_eq_iff {kind kind' : NameKind} {q q' : Quality} :
    nameOf? kind q = nameOf? kind' q' ↔ q = q' ∧ (q = .absent ∨ kind = kind') := by
  cases kind <;> cases kind' <;> cases q <;> cases q' <;> decide +kernel

/-- The alternative names of a fixture, a further entry apart. -/
def Fixture.names (f : Fixture) : List GeneralName :=
  NameKind.all.filterMap fun kind => nameOf? kind (f.san kind)

theorem mem_names_iff {f : Fixture} {kind : NameKind} {q : Quality} {n : GeneralName}
    (named : nameOf? kind q = some n) : n ∈ f.names ↔ f.san kind = q := by
  have present : q ≠ .absent := by
    rintro rfl
    cases kind <;> cases named
  have listed : kind ∈ NameKind.all := by cases kind <;> decide
  simp only [Fixture.names, List.mem_filterMap, ← named, nameOf?_eq_iff]
  constructor
  · rintro ⟨kind', -, same, absent | rfl⟩
    · exact absurd (same.symm.trans absent) present
    · exact same
  · exact fun same => ⟨kind, listed, same, .inr rfl⟩

/-! ## Where the names are found -/

theorem nameOf?_hostname (f : Fixture) :
    nameOf? f.client .valid = some (GeneralName.ofText f.hostname) := by
  rw [Fixture.hostname]
  cases f.client <;> decide +kernel

theorem nameOf?_commonName (f : Fixture) :
    nameOf? f.commonNameKind f.commonName = f.commonNameText?.map GeneralName.ofText := by
  rw [Fixture.commonNameText?]
  cases f.commonName <;> cases f.commonNameKind <;> decide +kernel

theorem commonNameStandsIn_iff (f : Fixture) :
    f.commonNameStandsIn = true ↔ f.commonNameText? = some f.hostname := by
  rw [Fixture.commonNameStandsIn, Fixture.commonNameText?, Fixture.hostname]
  cases f.client <;> cases f.commonName <;> cases f.commonNameKind <;> decide +kernel

/-- A further entry is taken for no name if its tag is that of another kind. -/
theorem ofElement?_foreign {e : ExtraName} (notDns : e.tag ≠ 2) (notIp : e.tag ≠ 7) :
    GeneralName.ofElement? e.element = none := by
  rw [GeneralName.ofElement?, ExtraName.element, if_neg, if_neg]
  · exact fun same => notIp ((UInt8.add_right_inj 0x80).mp same)
  · exact fun same => notDns ((UInt8.add_right_inj 0x80).mp same)

section
variable {f : Fixture}

/-- The entries give back the names of the fixture, whatever a further entry contains. -/
theorem filterMap_ofElement? (foreign : ∀ e ∈ f.extra, e.tag ≠ 2 ∧ e.tag ≠ 7) :
    (f.sanEntries.map ExtraName.element).filterMap GeneralName.ofElement? = f.names := by
  have extra : (f.extra.toList.map ExtraName.element).filterMap GeneralName.ofElement? = [] := by
    cases h : f.extra with
    | none => rfl
    | some e =>
      obtain ⟨notDns, notIp⟩ := foreign e h
      simp [ofElement?_foreign notDns notIp]
  rw [Fixture.sanEntries, List.map_append, List.filterMap_append, extra, List.append_nil]
  rw [Fixture.names, NameKind.all]
  simp only [Fixture.san]
  cases f.dnsSan <;> cases f.ipSan <;> rfl

theorem low_of_extra (low : ∀ e ∈ f.extra, e.tag ≤ 30) : ∀ e ∈ f.sanEntries, e.tag ≤ 30 := by
  rw [Fixture.sanEntries, List.forall_mem_append, List.forall_mem_append]
  refine ⟨⟨?_, ?_⟩, fun e member => low e (Option.mem_toList.mp member)⟩
  · cases f.dnsSan <;> decide
  · cases f.ipSan <;> decide

end

/-! ## Which names are excluded -/

section
variable {f : Fixture} {kind : NameKind} {q : Quality} {n : GeneralName}
  (named : nameOf? kind q = some n)
include named

omit named in
theorem absent_ne_of_named (named : nameOf? kind q = some n) : q ≠ .absent := by
  rintro rfl
  cases kind <;> cases named

/-- Trees of another kind or of another quality do not matter for a name. -/
theorem any_trees (kind' : NameKind) (q' : Quality) :
    (permittedTree kind' q').any n.liesIn = decide (kind' = kind ∧ q' = q) ∧
      (permittedTree kind' q').any n.comparable = decide (kind' = kind ∧ q' ≠ .absent) ∧
      (excludedTree kind' q').any n.liesIn = decide (kind' = kind ∧ q' = q) := by
  cases kind <;> cases q <;> cases named <;> cases kind' <;> cases q' <;> decide +kernel

theorem violatesConstraints_eq : f.violatesConstraints kind q =
    (decide (f.excluded kind = q) ||
      decide (f.permitted kind ≠ .absent) && !decide (f.permitted kind = q)) := by
  rw [Fixture.violatesConstraints]
  have present := absent_ne_of_named named
  cases q with
  | absent => exact absurd rfl present
  | valid => cases f.permitted kind <;> cases f.excluded kind <;> rfl
  | invalid => cases f.permitted kind <;> cases f.excluded kind <;> rfl

theorem any_isExcludedBy : f.constraints.any n.isExcludedBy = f.violatesConstraints kind q := by
  rw [violatesConstraints_eq named, Fixture.constraints]
  by_cases constrained : f.isConstrained = true
  · rw [if_pos constrained, Option.any_some, GeneralName.isExcludedBy]
    simp only [List.any_flatMap, any_trees named]
    cases kind <;> simp [NameKind.all]
  · -- without constraints there are no trees of this kind
    have listed : kind ∈ NameKind.all := by cases kind <;> decide
    have bare : f.permitted kind = .absent ∧ f.excluded kind = .absent := by
      simp only [Fixture.isConstrained, List.any_eq_true, not_exists, not_and, Bool.or_eq_true,
        decide_eq_true_eq, not_or, not_not, ne_eq] at constrained
      exact constrained kind listed
    rw [if_neg constrained, Option.any_none, bare.1, bare.2]
    simp [(absent_ne_of_named named).symm]

end

/-- The names of a kind and quality are excluded as the oracle says, also when there are none. -/
theorem any_nameOf? (f : Fixture) (kind : NameKind) (q : Quality) :
    ((nameOf? kind q).any fun n => f.constraints.any n.isExcludedBy) =
      f.violatesConstraints kind q := by
  cases named : nameOf? kind q with
  | some n => exact any_isExcludedBy named
  | none =>
    have absent : q = .absent := by cases kind <;> cases q <;> first | rfl | cases named
    rw [absent]
    rfl

theorem any_names (f : Fixture) : (f.names.any fun n => f.constraints.any n.isExcludedBy) =
    NameKind.all.any fun kind => f.violatesConstraints kind (f.san kind) := by
  rw [Fixture.names, List.any_filterMap]
  simp only [← any_nameOf?]
  rfl

/-! ## Verdicts -/

/-- The oracle as a decision. A fixture whose common name alone carries the requested name cannot
be a soft pass: then the common name is the requested name, whose exclusion is a failure. -/
theorem expected_eq (f : Fixture) : f.expected = .ok (
    if f.san f.client ≠ .valid ∧ ¬ f.commonNameStandsIn = true then .fail
    else if f.violatesConstraints f.client .valid = true then .fail
    else if f.san f.client ≠ .valid ∨
        (NameKind.all.any fun kind => f.violatesConstraints kind (f.san kind)) = true then .softFail
    else if f.violatesConstraints f.commonNameKind f.commonName = true then .softPass
    else .pass) := by
  have standing : f.commonNameStandsIn = true →
      f.violatesConstraints f.commonNameKind f.commonName =
        f.violatesConstraints f.client .valid := by
    intro standsIn
    obtain ⟨kind, valid⟩ : f.commonNameKind = f.client ∧ f.commonName = .valid := by
      simpa [Fixture.commonNameStandsIn] using standsIn
    rw [kind, valid]
  rw [Fixture.expected]
  by_cases named : f.san f.client = .valid
  · cases violation : f.violatesConstraints f.client .valid
    · cases NameKind.all.any fun kind => f.violatesConstraints kind (f.san kind) <;>
        cases f.violatesConstraints f.commonNameKind f.commonName <;> simp [named]
    · simp [named]
  · cases standsIn : f.commonNameStandsIn
    · simp [named]
    · rw [standing standsIn]
      cases violation : f.violatesConstraints f.client .valid <;> simp [named]

theorem verdict_names (f : Fixture) :
    f.expected = .ok (verdict f.hostname f.commonNameText? f.names f.constraints) := by
  have requested := nameOf?_hostname f
  have named : GeneralName.ofText f.hostname ∈ f.names ↔ f.san f.client = .valid :=
    mem_names_iff requested
  have excluded := any_isExcludedBy (f := f) requested
  have common := any_nameOf? f f.commonNameKind f.commonName
  rw [nameOf?_commonName] at common
  rw [expected_eq, verdict]
  simp only [named, excluded, any_names, common, commonNameStandsIn_iff, ne_eq]

/-- The oracle has an expectation for every fixture whose further entry, if any, has the tag of
another kind of names, and it is the verdict on what is emitted: the host name, the common name, the
names that are read back from the bytes of the extension, and the constraints. The extension is
refused only where it would reach the length limit. -/
theorem expected_eq_verdict (f : Fixture)
    (foreign : ∀ e ∈ f.extra, e.tag ≤ 30 ∧ e.tag ≠ 2 ∧ e.tag ≠ 7) :
    ∃ v, f.expected = .ok v ∧
      ((sanBytes f.sanEntries).length < Strict.lengthLimit →
        ∃ extension names, encodeSan f.sanEntries = .ok extension ∧
          names? extension = some names ∧
          verdict f.hostname f.commonNameText? names f.constraints = v) ∧
      (Strict.lengthLimit ≤ (sanBytes f.sanEntries).length →
        ∃ part, encodeSan f.sanEntries = .error (.sanLength part)) := by
  have low := low_of_extra fun e member => (foreign e member).1
  refine ⟨_, verdict_names f, fun small => ?_, encodeSan_of_large low⟩
  refine ⟨sanBytes f.sanEntries, f.names, encodeSan_of_small low small, ?_, rfl⟩
  rw [names?, sanElements?_sanBytes low small, Option.map_some,
    filterMap_ofElement? fun e member => (foreign e member).2]

/-- A fixture whose further entry, a resource identifier, contains the bytes of an excluded name. -/
def smuggled : Fixture :=
  { Fixture.bare with
    dnsSan := .valid
    excludedDns := .invalid
    extra := some ⟨6, Der.tagged dnsTag (Bytes.ofString invalidDnsName)⟩ }

/-- The name inside of the further entry is not taken for an alternative name. -/
theorem verdict_of_smuggled : smuggled.expected = .ok .pass ∧
    ∃ extension names, encodeSan smuggled.sanEntries = .ok extension ∧
      names? extension = some names ∧
      verdict smuggled.hostname smuggled.commonNameText? names smuggled.constraints = .pass := by
  have foreign : ∀ e ∈ smuggled.extra, e.tag ≤ 30 ∧ e.tag ≠ 2 ∧ e.tag ≠ 7 := by
    rintro e ⟨⟩
    decide
  obtain ⟨v, expected, emitted, -⟩ := expected_eq_verdict smuggled foreign
  have pass : smuggled.expected = .ok .pass := by decide
  rw [pass, Except.ok.injEq] at expected
  subst expected
  exact ⟨pass, emitted (by decide +kernel)⟩

end ChainConformance.NameConstraints
