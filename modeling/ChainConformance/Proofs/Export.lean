import ChainConformance.Export
import ChainConformance.Proofs.Collection
import ChainConformance.Proofs.Run.Served

/-!
# What an export has to do with runs and manifests

An export picks suites and tests in its own way, by listing the members of a set below the count of
a suite; a run asks for each index whether the set contains it; and a manifest lists all tests.
Proved here is that the three agree:

* `selected_eq`, `mem_selected_iff`: which tests are exported;
* `agrees_of_exportSuite`: the export of one suite, for every suite that is well formed;
* `agrees_of_exportAll`: the whole export, for every collection of such suites;
  `exists_exportAll`: there is one if the chains of the tests can be made;
* `exports_agree`: the same for the collection of any root.
-/

namespace ChainConformance

/-- The expectation that the two marks of an exported test stand for. -/
def Expectation.ofMarks (accept failureIsWarning : Bool) : Expectation :=
  match accept, failureIsWarning with
  | true, false => .pass
  | true, true => .softPass
  | false, false => .fail
  | false, true => .softFail

theorem Expectation.ofMarks_self (e : Expectation) : ofMarks e.prefersAccept e.isSoft = e := by
  cases e <;> rfl

/-- The exported tests of a suite agree with the runs of the suite under the same filter, and with
its manifest. -/
structure SuiteExport.Agrees (filter : RunFilter) (s : Suite AnyScenario) (m : SuiteManifest)
    (e : SuiteExport) : Prop where
  ascending : (e.tests.map (·.index)).Pairwise (· < ·)
  /-- A test is exported if and only if the filter does not leave it out. -/
  admitted : ∀ index, index ∈ e.tests.map (·.index) ↔ index < s.count ∧ ¬ filter.LeavesOut index
  /-- Without a set, or with one without intervals, all tests are exported. -/
  whole : (∀ set, filter.tests = some set → set.intervals = []) →
    e.tests.map (·.index) = List.range s.count
  /-- A run of the suite skips just the tests that are not exported, and those that require a
  feature that is not supported. -/
  run : ∀ (τ : Type) (client : Client AnyScenario τ) (first : τ) (r : SuiteResults),
    (Run.start (Run.suite filter s client) first).1 = .ok r → ∀ index < s.count, ∀ t,
      s.test index = .ok t → (r.outcomes[index]? = some .skipped ↔
        index ∉ e.tests.map (·.index) ∨ ∃ f ∈ t.features, f ∉ r.supported)
  manifest : e.manifest = m
  /-- The marks of a test stand for its expectation in the manifest. -/
  expectations : ∀ t ∈ e.tests,
    m.expectations[t.index]? = some (.ofMarks t.accept t.failureIsWarning)
  /-- A test lists the names that the manifest has for the features that it requires, in order. -/
  features : ∀ t ∈ e.tests, ∃ test, s.test t.index = .ok test ∧
    List.Forall₂ (fun f name => m.features.get? f = some name) test.features t.features ∧
    ∀ name ∈ t.features, name ∈ m.features.values

/-- An export has the suites that a run with the filter would run, and the export of each of them
agrees with its runs and its manifest. -/
structure Export.Agrees (c : Collection) (manifest : Manifest) (filter : RunFilter) (x : Export) :
    Prop where
  suites : ∀ name, (x.suites.get? name).isSome = true ↔
    name ∈ c.names ∧ filter.includesSuite name = true
  /-- A run under the filter is a run of the exported suites alone, whatever comes of it. -/
  run : ∀ (τ : Type) (client : Suite AnyScenario → Client AnyScenario τ),
    Run.suites filter client c.suites = Run.suites ⟨none, filter.tests⟩ client
      (c.suites.filter fun s => (x.suites.get? s.name).isSome)
  /-- If it has results, they are for the exported suites. -/
  results : ∀ (τ : Type) (client : Suite AnyScenario → Client AnyScenario τ) (first : τ) map last,
    Run.start (Run.all filter c client) first = (.ok map, last) →
      ∀ name, (map.get? name).isSome = (x.suites.get? name).isSome
  each : ∀ s ∈ c.suites, ∀ e, x.suites.get? s.name = some e →
    ∃ m, manifest.suites.get? s.name = some m ∧ e.Agrees filter s m

namespace Collection

/-! ## Tests -/

section
variable {c : Collection} {draws : Nat → X509.Draws} {s : Suite AnyScenario}

/-- The set is listed below the count just as the filter asks about each index. -/
theorem selected_eq (filter : RunFilter) (s : Suite AnyScenario) :
    selected filter.tests s = (List.range s.count).filter filter.includesTest := by
  obtain ⟨-, tests⟩ := filter
  cases tests with
  | none => exact (List.filter_eq_self.mpr fun _ _ => rfl).symm
  | some set =>
    rw [selected, IndexSet.below]
    by_cases empty : set.isEmpty = true
    · rw [if_pos empty]
      exact (List.filter_eq_self.mpr fun index _ => by simp [RunFilter.includesTest, empty]).symm
    · rw [if_neg empty]
      exact List.filter_congr fun index _ => by simp [RunFilter.includesTest, empty]

theorem mem_selected_iff {filter : RunFilter} {index : Nat} :
    index ∈ selected filter.tests s ↔ index < s.count ∧ ¬ filter.LeavesOut index := by
  rw [selected_eq, List.mem_filter, List.mem_range, RunFilter.includesTest_iff]

theorem selected_of_unset {tests : Option IndexSet}
    (unset : ∀ set, tests = some set → set.intervals = []) :
    selected tests s = List.range s.count := by
  cases tests with
  | none => rfl
  | some set => simp [selected, IndexSet.isEmpty, unset set rfl]

theorem exportTest_eq_ok_iff {index : Nat} {t : TestExport} : c.exportTest draws s index = .ok t ↔
    ∃ test chain names, s.test index = .ok test ∧ c.chain (draws index) test = .ok chain ∧
      test.features.mapM s.featureName = .ok names ∧
      t = ⟨index, chain, test.hostname, names, test.expected.prefersAccept,
        test.expected.isSoft⟩ := by
  simp only [exportTest, bind_eq_ok_iff, pure_eq_ok_iff]
  constructor
  · rintro ⟨test, found, chain, made, names, named, rfl⟩
    exact ⟨test, chain, names, found, made, named, rfl⟩
  · rintro ⟨test, chain, names, found, made, named, rfl⟩
    exact ⟨test, found, chain, made, names, named, rfl⟩

theorem index_of_exportTest {index : Nat} {t : TestExport}
    (exported : c.exportTest draws s index = .ok t) : t.index = index := by
  obtain ⟨_, _, _, -, -, -, rfl⟩ := exportTest_eq_ok_iff.mp exported
  rfl

/-- The exported form of a test says of it what the manifest of its suite says. -/
theorem described_of_exportTest {m : SuiteManifest} {index : Nat} {t : TestExport}
    (wellFormed : s.WellFormed) (described : m.Describes s) (below : index < s.count)
    (exported : c.exportTest draws s index = .ok t) :
    m.expectations[index]? = some (.ofMarks t.accept t.failureIsWarning) ∧
    ∃ test, s.test index = .ok test ∧
      List.Forall₂ (fun f name => m.features.get? f = some name) test.features t.features := by
  obtain ⟨test, chain, names, found, -, named, rfl⟩ := exportTest_eq_ok_iff.mp exported
  refine ⟨?_, test, found, ?_⟩
  · obtain ⟨test', found', expected⟩ := described.expectations index below
    obtain rfl : test' = test := Except.ok.inj (found'.symm.trans found)
    rw [expected, Expectation.ofMarks_self]
  · -- the names of both are those of the suite, which lists the features of the test
    refine (List.forall₂_iff_zip.mpr ?_)
    obtain ⟨lengths, each⟩ := List.forall₂_iff_zip.mp (mapM_eq_ok_iff.mp named)
    refine ⟨lengths, fun {f name} paired => ?_⟩
    have listed := wellFormed.listed index below test found f (List.of_mem_zip paired).1
    obtain ⟨name', called, known⟩ := described.features f listed
    obtain rfl : name' = name := Except.ok.inj (called.symm.trans (each paired))
    exact known

/-! ## Suites -/

theorem agrees_of_exportSuite {filter : RunFilter} {e : SuiteExport} (wellFormed : s.WellFormed)
    (exported : c.exportSuite draws filter.tests s = .ok e) :
    SuiteManifest.ofSuite s = .ok e.manifest ∧ e.Agrees filter s e.manifest := by
  obtain ⟨m, made, exported⟩ := bind_eq_ok_iff.mp exported
  obtain ⟨tests, listed, result⟩ := bind_eq_ok_iff.mp exported
  obtain rfl := pure_eq_ok_iff.mp result
  obtain ⟨m', made', described⟩ := wellFormed.exists_manifest
  obtain rfl : m = m' := Except.ok.inj (made.symm.trans made')
  have each := mapM_eq_ok_iff.mp listed
  have same : List.Forall₂ (· = ·) (selected filter.tests s) (tests.map (·.index)) :=
    List.forall₂_map_right_iff.mpr (each.imp fun _ _ h => (index_of_exportTest h).symm)
  have indices : tests.map (·.index) = selected filter.tests s :=
    (List.forall₂_eq_eq_eq ▸ same).symm
  have admitted (index : Nat) : index ∈ tests.map (·.index) ↔
      index < s.count ∧ ¬ filter.LeavesOut index := indices ▸ mem_selected_iff
  have told : ∀ t ∈ tests, m.expectations[t.index]? =
      some (.ofMarks t.accept t.failureIsWarning) ∧ ∃ test, s.test t.index = .ok test ∧
      List.Forall₂ (fun f name => m.features.get? f = some name) test.features t.features := by
    intro t member
    obtain ⟨index, picked, exported⟩ := exists_of_mem_right each member
    rw [index_of_exportTest exported]
    exact described_of_exportTest wellFormed described (mem_selected_iff.mp picked).1 exported
  refine ⟨made, ?_⟩
  exact {
    ascending := by
      rw [indices, selected_eq]
      exact List.pairwise_lt_range.filter _
    admitted := admitted
    whole := by
      intro unset
      rw [indices, selected_of_unset unset]
    run := by
      intro τ client first r done index below t found
      obtain ⟨T, -, gated⟩ := Run.results_gated wellFormed.toComplete wellFormed.distinct filter
        client first done
      obtain ⟨t', found', skipped⟩ := gated.skipped index below
      obtain rfl : t' = t := Except.ok.inj (found'.symm.trans found)
      rw [skipped, admitted]
      simp [below]
    manifest := rfl
    expectations := fun t member => (told t member).1
    features := by
      intro t member
      obtain ⟨-, test, found, named⟩ := told t member
      refine ⟨test, found, named, fun name listed => ?_⟩
      obtain ⟨f, -, known⟩ := exists_of_mem_right named listed
      exact SortedMap.mem_values_of_get? known }

end

/-! ## The whole export -/

/-- Something made of each suite of a list, under its name. -/
theorem named_eq_ok_iff {α : Type} {make : Suite AnyScenario → Except Error α}
    {list : List (Suite AnyScenario)} {entries : List (String × α)} :
    (list.mapM fun s => do return (s.name, ← make s)) = .ok entries ↔
      List.Forall₂ (fun s e => e.1 = s.name ∧ make s = .ok e.2) list entries := by
  rw [mapM_eq_ok_iff]
  refine iff_of_eq (congrArg (List.Forall₂ · list entries) (funext₂ fun s e => propext ?_))
  simp only [bind_eq_ok_iff, pure_eq_ok_iff]
  constructor
  · rintro ⟨a, made, rfl⟩
    exact ⟨rfl, made⟩
  · rintro ⟨named, made⟩
    exact ⟨e.2, made, by rw [← named]⟩

section
variable {α : Type} {make : Suite AnyScenario → Except Error α} {list : List (Suite AnyScenario)}
  {entries : List (String × α)}

theorem names_of_named
    (related : List.Forall₂ (fun s e => e.1 = s.name ∧ make s = .ok e.2) list entries) :
    entries.map (·.1) = list.map (·.name) := by
  induction related with
  | nil => rfl
  | cons first _ ih => rw [List.map_cons, List.map_cons, first.1, ih]

theorem get?_of_named (distinct : (list.map (·.name)).Nodup)
    (related : List.Forall₂ (fun s e => e.1 = s.name ∧ make s = .ok e.2) list entries)
    {s : Suite AnyScenario} (member : s ∈ list) {a : α} :
    (SortedMap.ofList entries).get? s.name = some a ↔ make s = .ok a := by
  rw [SortedMap.get?_ofList_eq_some_iff (names_of_named related ▸ distinct)]
  constructor
  · intro present
    obtain ⟨s', member', same, made⟩ := exists_of_mem_right related present
    cases List.inj_on_of_nodup_map distinct member member' same
    exact made
  · intro made
    obtain ⟨e, present, named, made'⟩ := exists_of_mem_left related member
    obtain rfl : a = e.2 := Except.ok.inj (made.symm.trans made')
    rw [← named]
    exact present

end

section
variable {c : Collection} {manifest : Manifest}

theorem exists_manifest (wellFormed : ∀ s ∈ c.suites, s.WellFormed) :
    ∃ m, c.manifest = .ok m := by
  have each : ∀ s ∈ c.suites, ∃ e : String × SuiteManifest,
      e.1 = s.name ∧ SuiteManifest.ofSuite s = .ok e.2 := by
    intro s member
    obtain ⟨m, made, -⟩ := (wellFormed s member).exists_manifest
    exact ⟨(s.name, m), rfl, made⟩
  obtain ⟨entries, related⟩ := exists_forall₂_iff.mpr each
  exact ⟨_, bind_eq_ok_iff.mpr ⟨entries, named_eq_ok_iff.mpr related, rfl⟩⟩

/-- The manifest of a collection has the manifest of each suite under its name. -/
theorem suites_of_manifest (distinct : c.names.Nodup) (made : c.manifest = .ok manifest)
    {s : Suite AnyScenario} (member : s ∈ c.suites) {m : SuiteManifest} :
    manifest.suites.get? s.name = some m ↔ SuiteManifest.ofSuite s = .ok m := by
  obtain ⟨entries, named, result⟩ := bind_eq_ok_iff.mp made
  obtain rfl := pure_eq_ok_iff.mp result
  exact get?_of_named distinct (named_eq_ok_iff.mp named) member

theorem chosen_eq (filter : RunFilter) (name : String) :
    (!filter.suite.any (· ≠ name)) = filter.includesSuite name := by
  rw [RunFilter.includesSuite]
  cases filter.suite <;> simp

/-- An export is made if the chains of the tests can be made. -/
theorem exists_exportAll {draws : String → Nat → X509.Draws} {filter : RunFilter}
    (wellFormed : ∀ s ∈ c.suites, s.WellFormed)
    (chains : ∀ s ∈ c.suites, filter.includesSuite s.name = true → ∀ index t,
      s.test index = .ok t → ∃ chain, c.chain (draws s.name index) t = .ok chain) :
    ∃ x, c.exportAll draws filter = .ok x := by
  have tested : ∀ s ∈ c.suites, filter.includesSuite s.name = true →
      ∀ index ∈ selected filter.tests s, ∃ t, c.exportTest (draws s.name) s index = .ok t := by
    intro s member admitted index picked
    have below := (mem_selected_iff.mp picked).1
    obtain ⟨test, found⟩ := (wellFormed s member).tests index below
    obtain ⟨chain, made⟩ := chains s member admitted index test found
    obtain ⟨names, named⟩ := exists_forall₂_iff.mpr fun f required =>
      (wellFormed s member).named f ((wellFormed s member).listed index below test found f required)
    exact ⟨_, exportTest_eq_ok_iff.mpr
      ⟨test, chain, names, found, made, mapM_eq_ok_iff.mpr named, rfl⟩⟩
  have each : ∀ s ∈ c.suites.filter fun s => filter.includesSuite s.name,
      ∃ e : String × SuiteExport,
        e.1 = s.name ∧ c.exportSuite (draws s.name) filter.tests s = .ok e.2 := by
    intro s picked
    obtain ⟨member, admitted⟩ := List.mem_filter.mp picked
    obtain ⟨m, made, -⟩ := (wellFormed s member).exists_manifest
    obtain ⟨tests, listed⟩ := exists_forall₂_iff.mpr (tested s member admitted)
    exact ⟨(s.name, ⟨m, tests⟩), rfl,
      bind_eq_ok_iff.mpr ⟨m, made, bind_eq_ok_iff.mpr ⟨tests, mapM_eq_ok_iff.mpr listed, rfl⟩⟩⟩
  obtain ⟨entries, related⟩ := exists_forall₂_iff.mpr each
  simp only [exportAll, chosen_eq]
  exact ⟨_, bind_eq_ok_iff.mpr ⟨entries, named_eq_ok_iff.mpr related, rfl⟩⟩

theorem agrees_of_exportAll {draws : String → Nat → X509.Draws} {filter : RunFilter} {x : Export}
    (wellFormed : ∀ s ∈ c.suites, s.WellFormed) (distinct : c.names.Nodup)
    (made : c.manifest = .ok manifest) (exported : c.exportAll draws filter = .ok x) :
    x.Agrees c manifest filter := by
  simp only [exportAll, chosen_eq] at exported
  obtain ⟨entries, named, result⟩ := bind_eq_ok_iff.mp exported
  obtain rfl := pure_eq_ok_iff.mp result
  have related := named_eq_ok_iff.mp named
  have suites (name : String) : ((SortedMap.ofList entries).get? name).isSome = true ↔
      name ∈ c.names ∧ filter.includesSuite name = true := by
    rw [SortedMap.isSome_get?_ofList, names_of_named related, names, ← List.mem_filter,
      List.filter_map]
    rfl
  have kept : ((c.suites.filter fun s => filter.includesSuite s.name).map (·.name)).Nodup :=
    distinct.sublist (List.filter_sublist.map _)
  exact {
    suites
    run := by
      intro τ client
      rw [Run.suites_eq_filter]
      refine congrArg _ (List.filter_congr fun s member => ?_)
      rw [Bool.eq_iff_iff, suites]
      exact (and_iff_right (List.mem_map_of_mem member)).symm
    results := by
      intro τ client first map last run name
      rw [Bool.eq_iff_iff, suites, Run.keys_of_all run]
    each := by
      intro s member e present
      have admitted := ((suites s.name).mp (by rw [present]; rfl)).2
      have picked : s ∈ c.suites.filter fun s => filter.includesSuite s.name :=
        List.mem_filter.mpr ⟨member, admitted⟩
      obtain ⟨described, agrees⟩ := agrees_of_exportSuite (wellFormed s member)
        ((get?_of_named kept related picked).mp present)
      exact ⟨_, (suites_of_manifest distinct made member).mpr described, agrees⟩ }

end

end Collection

/-- Every export of the collection for a root has the suites that a run under the same filter would
run. In each of them it has the tests that the filter does not leave out, in order and once each,
with the expectations and the names of features that the manifest has. -/
theorem exports_agree (root : Root) : ∃ c manifest, Collection.ofRoot root = .ok c ∧
    c.manifest = .ok manifest ∧ ∀ draws filter x, c.exportAll draws filter = .ok x →
      x.Agrees c manifest filter := by
  obtain ⟨c, made, names, -⟩ := Collection.exists_ofRoot root
  have wellFormed := Collection.wellFormed_of_ofRoot made
  have distinct : c.names.Nodup := by
    rw [names]
    decide
  obtain ⟨manifest, described⟩ := Collection.exists_manifest wellFormed
  exact ⟨c, manifest, made, described, fun draws filter x exported =>
    Collection.agrees_of_exportAll wellFormed distinct described exported⟩

/-! ## A set out of order -/

/-- Intervals that overlap, stand out of order and reach beyond the last test. -/
def scattered : RunFilter :=
  ⟨some PathBuilding.suiteName,
    some ⟨[⟨79, 200, by decide⟩, ⟨3, 5, by decide⟩, ⟨1, 1, by decide⟩, ⟨4, 4, by decide⟩]⟩⟩

theorem scattered_leavesOut_iff {index : Nat} : ¬ scattered.LeavesOut index ↔
    (79 ≤ index ∧ index ≤ 200) ∨ (3 ≤ index ∧ index ≤ 5) ∨ index = 1 := by
  rw [← RunFilter.includesTest_iff]
  simp [RunFilter.includesTest, scattered, IndexSet.isEmpty, IndexSet.contains, Interval.contains]
  omega

open PathBuilding (unsignedRoot numberedDraws) in
/-- The tests of the scattered set are exported in order and once each, up to the last test of the
suite, and no other suite is. -/
theorem export_of_scattered : ∃ c manifest x e, Collection.ofRoot unsignedRoot = .ok c ∧
    c.manifest = .ok manifest ∧ c.exportAll (fun _ _ => numberedDraws 0) scattered = .ok x ∧
    x.Agrees c manifest scattered ∧ x.suites.get? NameConstraints.suiteName = none ∧
    x.suites.get? PathBuilding.suiteName = some e ∧
    e.tests.map (·.index) = [1, 3, 4, 5, 79, 80] := by
  obtain ⟨c, manifest, made, described, agree⟩ := exports_agree unsignedRoot
  obtain ⟨x, exported⟩ : ∃ x, c.exportAll (fun _ _ => numberedDraws 0) scattered = .ok x :=
    Collection.exists_exportAll (Collection.wellFormed_of_ofRoot made)
      fun s member admitted index t found =>
        (Run.frugal_sees_tests made).makes s member admitted index t found _ (by simp)
  have agrees := agree _ _ x exported
  obtain ⟨s, member, name, count⟩ : ∃ s ∈ c.suites, s.name = PathBuilding.suiteName ∧
      s.count = 81 := by
    obtain ⟨names, -, made⟩ := bind_eq_ok_iff.mp made
    obtain ⟨paths, listed, made⟩ := bind_eq_ok_iff.mp made
    obtain rfl := pure_eq_ok_iff.mp made
    have counted : (PathBuilding.suite .standard).map (fun s => (s.name, s.count)) =
        .ok (PathBuilding.suiteName, 81) := by decide +kernel
    obtain ⟨_, listed', same⟩ := map_eq_ok_iff.mp counted
    obtain rfl : paths = _ := Except.ok.inj (listed.symm.trans listed')
    exact ⟨_, List.mem_cons_of_mem _ List.mem_cons_self, Prod.mk.inj same⟩
  have other : (x.suites.get? NameConstraints.suiteName).isSome ≠ true := fun present =>
    absurd ((agrees.suites _).mp present).2 (by decide)
  obtain ⟨e, present⟩ := Option.isSome_iff_exists.mp ((agrees.suites s.name).mpr
    ⟨List.mem_map_of_mem member, by rw [name]; rfl⟩)
  obtain ⟨m, -, tests⟩ := agrees.each s member e present
  refine ⟨c, manifest, x, e, made, described, exported, agrees, by simpa using other,
    name ▸ present, ?_⟩
  refine tests.ascending.eq_of_mem_iff (by decide) fun index => ?_
  rw [tests.admitted, count, scattered_leavesOut_iff]
  simp only [List.mem_cons, List.not_mem_nil, or_false]
  omega

end ChainConformance
