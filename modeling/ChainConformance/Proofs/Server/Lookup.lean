import ChainConformance.Proofs.NameConstraints.Oracle
import ChainConformance.Proofs.Run.Phases
import ChainConformance.Proofs.PathBuilding.Synthesis
import ChainConformance.Server.Selection

/-!
# Looking up a test

A test is looked up by the name of its suite and its index, when it is selected and again for each
handshake. Proved here:

* `exists_ofRoot`: there is a collection for every root, and its two suites have a test at each
  index below their count and nowhere else;
* `exists_test_iff`: the look-up succeeds if and only if the collection has the test;
* `noLookup_chain`: making the chain of a test fails with none of the errors of a look-up.
-/

namespace ChainConformance

/-! ## Suites -/

/-- The suite has a test at each index below its count, and nowhere else. -/
def Suite.Indexed {σ : Type} (s : Suite σ) : Prop :=
  ∀ index, (∃ t, s.test index = .ok t) ↔ index < s.count

theorem Suite.Indexed.map {σ τ : Type} {s : Suite σ} (indexed : s.Indexed) (f : σ → τ) :
    (s.map f).Indexed := by
  intro index
  have found : (∃ t, (s.map f).test index = .ok t) ↔ ∃ t, s.test index = .ok t := by
    simp [Suite.map, map_eq_ok_iff]
  rw [found]
  exact indexed index

theorem NameConstraints.exists_suite :
    ∃ s, NameConstraints.suite = .ok s ∧ s.name = NameConstraints.suiteName ∧ s.Indexed := by
  obtain ⟨tests, made⟩ : ∃ tests, fixtures.mapM Fixture.toTest = .ok tests := by
    simp only [mapM_eq_ok_iff, exists_forall₂_iff]
    intro f _
    exact ⟨_, bind_eq_ok_iff.mpr ⟨_, expected_eq f, rfl⟩⟩
  refine ⟨_, bind_eq_ok_iff.mpr ⟨tests, made, rfl⟩, rfl, fun index => ?_⟩
  exact Suite.exists_testOf_iff

theorem PathBuilding.exists_suite :
    ∃ s, PathBuilding.suite .standard = .ok s ∧ s.name = PathBuilding.suiteName ∧ s.Indexed := by
  have succeeds : (scenarios .standard).toBool = true := by decide +kernel
  obtain ⟨all, made⟩ := exists_ok_of_toBool succeeds
  refine ⟨_, bind_eq_ok_iff.mpr ⟨all, made, rfl⟩, rfl, fun index => ?_⟩
  exact Suite.exists_testOf_iff

/-! ## Collections -/

namespace Collection

/-- The collection for a root: its suites are known by name and have their tests by index. -/
theorem exists_ofRoot (root : Root) : ∃ c, Collection.ofRoot root = .ok c ∧
    c.names = [NameConstraints.suiteName, PathBuilding.suiteName] ∧ ∀ s ∈ c.suites, s.Indexed := by
  obtain ⟨names, made, named, indexed⟩ := NameConstraints.exists_suite
  obtain ⟨paths, made', named', indexed'⟩ := PathBuilding.exists_suite
  refine ⟨_, bind_eq_ok_iff.mpr ⟨names, made, bind_eq_ok_iff.mpr ⟨paths, made', rfl⟩⟩, ?_, ?_⟩
  · rw [← named, ← named']
    rfl
  · intro s member
    rcases List.mem_cons.mp member with rfl | member
    · exact indexed.map _
    · obtain rfl := List.mem_singleton.mp member
      exact indexed'.map _

/-- The collection has a suite with the name, which has the index. -/
def has (c : Collection) (t : SelectedTest) : Bool :=
  (c.suite? t.suite).any fun s => t.index < s.count

theorem exists_test_iff {c : Collection} (indexed : ∀ s ∈ c.suites, s.Indexed)
    (t : SelectedTest) : (∃ test, c.test t.suite t.index = .ok test) ↔ c.has t = true := by
  rw [has, test, suite]
  cases found : c.suite? t.suite with
  | none => simp
  | some s =>
    have known := indexed s (List.mem_of_find?_eq_some found) t.index
    simpa [bind_eq_ok_iff] using known

theorem name_of_has {c : Collection} {t : SelectedTest} (has : c.has t = true) :
    t.suite ∈ c.names := by
  rw [Collection.has, Option.any_eq_true] at has
  obtain ⟨s, found, -⟩ := has
  have named : s.name = t.suite := by simpa using List.find?_some found
  exact List.mem_map.mpr ⟨s, List.mem_of_find?_eq_some found, named⟩

end Collection

/-! ## Chains

Every error of a synthesis is about a root, a certificate or a scenario. -/

/-- The error is one of looking up a test. -/
def Error.ofLookup : Error → Bool
  | unknownSuite .. | noSuchTest .. | noTestSelected => true
  | _ => false

/-- The computation does not fail like a look-up. -/
def NoLookup {α : Type} (x : Except Error α) : Prop := ∀ e, x = .error e → e.ofLookup = false

namespace NoLookup

variable {α β : Type}

theorem ok (a : α) : NoLookup (.ok a) := fun _ h => nomatch h

theorem error {e : Error} (other : e.ofLookup = false) : NoLookup (.error e : Except Error α) := by
  rintro _ ⟨⟩
  exact other

theorem bind {x : Except Error α} {f : α → Except Error β} (first : NoLookup x)
    (next : ∀ a, NoLookup (f a)) : NoLookup (x >>= f) :=
  error_of_bind first next

theorem map {x : Except Error α} (h : NoLookup x) (f : α → β) : NoLookup (x.map f) := by
  cases x with
  | ok a => exact ok _
  | error e => exact error (h e rfl)

theorem mapM {f : α → Except Error β} (each : ∀ a, NoLookup (f a)) (xs : List α) :
    NoLookup (xs.mapM f) := by
  intro e h
  obtain ⟨a, -, failed⟩ := mapM_eq_error h
  exact each a e failed

theorem foldlM {f : β → α → Except Error β} (each : ∀ b a, NoLookup (f b a)) (xs : List α) :
    ∀ b, NoLookup (xs.foldlM f b) := by
  induction xs with
  | nil => exact fun b => ok b
  | cons x xs ih =>
    intro b
    rw [List.foldlM_cons]
    exact (each b x).bind ih

end NoLookup

/-! ### The root -/

theorem StringKind.noLookup_check (kind : StringKind) (contents : Bytes) :
    NoLookup (kind.check contents) := by
  have text (allowed : Char → Bool) : NoLookup (StringKind.checkText kind allowed contents) := by
    rw [StringKind.checkText]
    split
    · exact .error rfl
    · split
      · exact .ok _
      · exact .error rfl
  cases kind with
  | utf8 | printable | ia5 | teletex => exact text _
  | bmp | universal =>
    rw [StringKind.check]
    split
    · exact .ok _
    · exact .error rfl

theorem X509.DistinguishedName.noLookup_ofIssuer (name : X509.Name) :
    NoLookup (ofIssuer name) := by
  refine .foldlM (fun n set => ?_) name _
  split
  · next a =>
    refine .map ?_ _
    rw [issuerPart]
    split
    · split
      · exact (StringKind.noLookup_check _ _).bind fun _ => .ok _
      · exact .error rfl
    · exact .error rfl
  · exact .error rfl

theorem X509.DistinguishedName.noLookup_ofSubject (name : X509.Name) :
    NoLookup (ofSubject name) := by
  refine .foldlM (fun n a => ?_) _ _
  refine .map ?_ _
  rw [subjectPart]
  split
  · split
    · exact (StringKind.noLookup_check _ _).bind fun _ => .ok _
    · exact .error rfl
  · exact .error rfl

theorem Root.noLookup_issuer (root : Root) : NoLookup root.issuer := by
  rw [Root.issuer, Root.issuerOf]
  split
  · split
    · exact .error rfl
    · exact (X509.DistinguishedName.noLookup_ofIssuer _).bind fun _ => .ok _
  · exact .error rfl

theorem Root.noLookup_subject (root : Root) : NoLookup root.subject := by
  rw [Root.subject]
  split
  · exact X509.DistinguishedName.noLookup_ofSubject _
  · exact .error rfl

/-! ### Scenarios -/

theorem NameConstraints.Fixture.noLookup_chain (root : Root) (d : X509.Draws) (f : Fixture) :
    NoLookup (f.chain root d) := by
  have entry (e : ExtraName) : NoLookup e.encode := by
    rw [ExtraName.encode]
    split
    · exact .error rfl
    · split
      · exact .error rfl
      · exact .ok _
  have san : NoLookup (encodeSan f.sanEntries) := by
    refine (NoLookup.mapM entry _).bind fun encoded => ?_
    dsimp only
    split
    · exact .error rfl
    · exact .ok _
  have extensions : NoLookup f.sanExtensions := by
    rw [sanExtensions]
    split
    · exact .ok _
    · exact san.map _
  exact root.noLookup_issuer.bind fun _ => (extensions.bind fun _ => .ok _).bind fun _ => .ok _

namespace PathBuilding

theorem Entities.noLookup_get (entities : Entities) (node : String) :
    NoLookup (entities.get node) := by
  rw [Entities.get]
  split
  · exact .ok _
  · exact .error rfl

namespace Scenario

variable {root : Root} {d : X509.Draws}

theorem noLookup_entities (s : Scenario) : NoLookup (s.entities root d) := by
  refine .mapM (fun p => ?_) _
  split
  · exact (root.noLookup_subject.bind fun _ => root.noLookup_issuer.bind fun _ => .ok _).bind
      fun _ => .ok _
  · exact .ok _

theorem noLookup_template (leafName : String) (s : Scenario) (j : Nat) (edge : Edge)
    (subject : Entity) : NoLookup (s.template d leafName j edge subject) := by
  rw [template]
  split
  · refine .bind ?_ fun _ => .ok _
    rw [asciiName]
    split
    · exact .ok _
    · exact .error rfl
  · exact .ok _

theorem noLookup_issueEdge (entities : Entities) (leafName : String) (s : Scenario) (j : Nat)
    (edge : Edge) : NoLookup (s.issueEdge entities d leafName j edge) := by
  have resigned (c : X509.Issued) : NoLookup (c.resign d.sign) := by
    rw [X509.Issued.resign]
    split
    · exact .error rfl
    split
    · split
      · exact .ok _
      · exact .error rfl
    · exact .error rfl
  refine (entities.noLookup_get _).bind fun issuer => ?_
  refine (entities.noLookup_get _).bind fun subject => ?_
  refine (s.noLookup_template leafName j edge subject).bind fun plain => ?_
  split
  · split
    · exact .error rfl
    · exact resigned _
    · exact .ok _
  · exact .ok _

theorem noLookup_chain (leafName : String) (s : Scenario) : NoLookup (s.chain root d leafName) := by
  refine s.noLookup_entities.bind fun entities => ?_
  refine (NoLookup.mapM (fun p => ?_) _).bind fun issued => ?_
  · exact (s.noLookup_issueEdge entities leafName p.2 p.1).bind fun _ => .ok _
  · exact (entities.noLookup_get _).bind fun _ => .ok _

end Scenario

end PathBuilding

/-- Making the chain of a test fails with none of the errors of a look-up. -/
theorem Collection.noLookup_chain (c : Collection) (d : X509.Draws) (t : TestCase AnyScenario) :
    NoLookup (c.chain d t) := by
  rw [Collection.chain]
  cases t.scenario with
  | path s => exact s.noLookup_chain _
  | names f => exact f.noLookup_chain _ _

end ChainConformance
