import ChainConformance.Proofs.Run.Course
import Mathlib.Data.List.Nodup

/-!
# Results and features

What the results of a run say about the questions that they come from. `Gated` is the whole of it:
a test is skipped if and only if the filter leaves it out or a feature that it requires is not
supported, every other outcome is that of the one answer about the test, and a feature is supported
if and only if nothing contradicted it when it was probed. Proved here, for suites that list no
feature twice:

* `mem_supported_iff`, `forall_probed_iff`: the supported features;
* `outcome_of_reported`: the outcome of a test;
* `results_gated`: the results of every run are gated.
-/

namespace ChainConformance.Run

variable {σ τ : Type}

/-- What the results of a run have to do with its questions. -/
structure Gated (filter : RunFilter) (s : Suite σ) (T : Transcript σ) (r : SuiteResults) :
    Prop where
  /-- Every test has an outcome. -/
  length : r.outcomes.length = s.count
  /-- A test is skipped for no other reason than the filter or a feature that it requires. -/
  skipped : ∀ index < s.count, ∃ t, s.test index = .ok t ∧
    (r.outcomes[index]? = some .skipped ↔
      filter.LeavesOut index ∨ ∃ f ∈ t.features, f ∉ r.supported)
  /-- A test that is not skipped was asked about once after the probes, and has that outcome. -/
  answered : ∀ index < s.count, r.outcomes[index]? ≠ some .skipped →
    ∃ x accepted, T.tests.filter (·.index = index) = [x] ∧ x.answer = .ok accepted ∧
      r.outcomes[index]? = some (.ofAnswer accepted)
  /-- A feature is supported if no answer contradicted it when it was probed. -/
  probed : List.Forall₂ (fun f block => Probed s f block ∧
    (f ∈ r.supported ↔ ∀ x ∈ block, ¬ x.Contradicts)) s.features T.probes
  supported : r.supported.Sublist s.features
  unsupported : r.unsupported.Sublist s.features
  complementary : ∀ f ∈ s.features, f ∈ r.unsupported ↔ f ∉ r.supported

/-! ## Features -/

theorem Upheld.mem {features : List Feature} {blocks : List (List (Exchange σ))} {f : Feature}
    (h : Upheld features blocks f) : f ∈ features := by
  obtain ⟨block, paired, -⟩ := h
  exact (List.of_mem_zip paired).1

theorem mem_supported_iff {features supported : List Feature}
    {blocks : List (List (Exchange σ))} (upheld : ∀ f, f ∈ supported ↔ Upheld features blocks f)
    {f : Feature} : f ∈ features.filter (supported.contains ·) ↔ Upheld features blocks f := by
  rw [List.mem_filter, List.contains_iff_mem, upheld]
  exact ⟨fun h => h.2, fun h => ⟨h.mem, h⟩⟩

/-- A feature that is listed once was probed once. -/
theorem upheld_iff_of_zip {features : List Feature} {blocks : List (List (Exchange σ))}
    (distinct : features.Nodup) (lengths : features.length = blocks.length) {f : Feature}
    {block : List (Exchange σ)} (paired : (f, block) ∈ features.zip blocks) :
    Upheld features blocks f ↔ ∀ x ∈ block, ¬ x.Contradicts := by
  constructor
  · rintro ⟨other, paired', holds⟩
    have firsts : ((features.zip blocks).map Prod.fst).Nodup := by
      rw [List.map_fst_zip (Nat.le_of_eq lengths)]
      exact distinct
    cases List.inj_on_of_nodup_map firsts paired' paired rfl
    exact holds
  · exact fun holds => ⟨block, paired, holds⟩

theorem forall_probed_iff {s : Suite σ} {blocks : List (List (Exchange σ))}
    (distinct : s.features.Nodup) (probed : List.Forall₂ (Probed s) s.features blocks) :
    List.Forall₂ (fun f block => Probed s f block ∧
      (Upheld s.features blocks f ↔ ∀ x ∈ block, ¬ x.Contradicts)) s.features blocks := by
  obtain ⟨lengths, pairs⟩ := List.forall₂_iff_zip.mp probed
  refine List.forall₂_iff_zip.mpr ⟨lengths, fun paired => ⟨pairs paired, ?_⟩⟩
  exact upheld_iff_of_zip distinct lengths paired

/-! ## Outcomes -/

/-- A test that was asked about has one question only. -/
theorem filter_index_eq {xs : List (Exchange σ)} (distinct : (xs.map (·.index)).Nodup)
    {x : Exchange σ} (member : x ∈ xs) : xs.filter (·.index = x.index) = [x] := by
  induction xs with
  | nil => cases member
  | cons y rest ih =>
    obtain ⟨fresh, others⟩ := List.nodup_cons.mp distinct
    rcases List.mem_cons.mp member with rfl | later
    · have none : rest.filter (·.index = x.index) = [] := by
        refine List.filter_eq_nil_iff.mpr fun z there same => fresh ?_
        exact List.mem_map.mpr ⟨z, there, by simpa using same⟩
      simp [none]
    · have other : y.index ≠ x.index := fun same =>
        fresh (List.mem_map.mpr ⟨x, later, same.symm⟩)
      simp [other, ih others later]

theorem Through.nodup {good : Exchange σ → Prop} {selects : Nat → Prop} {count : Nat}
    {chosen : List Nat} {xs : List (Exchange σ)}
    (picked : Picks selects (List.range count) chosen) (all : Through good chosen xs) :
    (xs.map (·.index)).Nodup := by
  rw [all.1]
  exact picked.1.nodup List.nodup_range

/-- Each test below the count has its outcome reported. -/
theorem outcome_of_reported {selects : Nat → Prop} {xs : List (Exchange σ)} {count index : Nat}
    {outcomes : List Outcome}
    (reported : List.Forall₂ (Reported selects xs) (List.range count) outcomes)
    (below : index < count) : ∃ o, outcomes[index]? = some o ∧ Reported selects xs index o := by
  obtain ⟨lengths, related⟩ := List.forall₂_iff_get.mp reported
  rw [List.length_range] at lengths
  have there : index < outcomes.length := lengths ▸ below
  have here := related index (by simpa using below) there
  refine ⟨outcomes[index], List.getElem?_eq_getElem there, ?_⟩
  simpa using here

theorem ofAnswer_ne_skipped (accepted : Bool) : Outcome.ofAnswer accepted ≠ .skipped := by
  cases accepted <;> decide

theorem Reported.skipped_iff {selects : Nat → Prop} {xs : List (Exchange σ)} {index : Nat}
    {o : Outcome} (h : Reported selects xs index o) : o = .skipped ↔ ¬ selects index := by
  rcases h with ⟨unselected, rfl⟩ | ⟨selected, -, -, -, accepted, -, rfl⟩
  · simp [unselected]
  · simp [selected, ofAnswer_ne_skipped]

theorem not_selects_iff {filter : RunFilter} {s : Suite σ} {supported : Feature → Prop}
    {index : Nat} {t : TestCase σ} (found : s.test index = .ok t) :
    ¬ Selects filter s supported index ↔
      filter.LeavesOut index ∨ ∃ f ∈ t.features, ¬ supported f := by
  simp [Selects, found]
  grind

/-! ## Results -/

/-- The results of a run that came to its end are gated. -/
theorem Course.gated {filter : RunFilter} {s : Suite σ} {T : Transcript σ} {r : SuiteResults}
    (complete : s.Complete) (distinct : s.features.Nodup) (course : Course filter s T (.ok r)) :
    Gated filter s T r := by
  cases course with
  | @finished x blocks chosen tests supported outcomes agrees probed picked all upheld reported =>
    have same : ∀ f, f ∈ s.features.filter (supported.contains ·) ↔ Upheld s.features blocks f :=
      fun f => mem_supported_iff upheld
    constructor
    · have lengths := reported.length_eq
      rw [List.length_range] at lengths
      exact lengths.symm
    · intro index below
      obtain ⟨t, found⟩ := complete.tests index below
      obtain ⟨o, here, report⟩ := outcome_of_reported reported below
      refine ⟨t, found, ?_⟩
      simp only [here, Option.some.injEq, same]
      rw [report.skipped_iff, not_selects_iff found]
    · intro index below ran
      obtain ⟨o, here, report⟩ := outcome_of_reported reported below
      rcases report with ⟨-, rfl⟩ | ⟨-, x, member, rfl, accepted, answer, rfl⟩
      · exact absurd here ran
      · exact ⟨x, accepted, filter_index_eq (all.nodup picked) member, answer, here⟩
    · simpa only [same] using forall_probed_iff distinct probed
    · exact List.filter_sublist
    · exact List.filter_sublist
    · intro f listed
      simp [listed]

/-- The results of a run have an outcome for every test; a test is skipped if and only if the
filter leaves it out or a feature that it requires is not supported; every other outcome is that of
the one answer about the test after the probes; and of the features, listed in order, those are
supported that no answer contradicted when they were probed. -/
theorem results_gated {s : Suite σ} (complete : s.Complete) (distinct : s.features.Nodup)
    (filter : RunFilter) (client : Client σ τ) (first : τ) {r : SuiteResults}
    (done : (start (suite filter s client) first).1 = .ok r) :
    ∃ T : Transcript σ, T.Records s client first (start (suite filter s client) first).2 ∧
      Gated filter s T r := by
  obtain ⟨T, records, course⟩ := start_suite complete filter client first
  rw [done] at course
  exact ⟨T, records, course.gated complete distinct⟩

/-- The second feature of the sample is refuted, so its last test is skipped; the second one is
left out by the filter. -/
theorem gated_of_thirdTime : ∃ r : SuiteResults,
    (start (suite sampleFilter sampleSuite thirdTime) 0).1 = .ok r ∧
    r.outcomes = [.accepted, .skipped, .accepted, .accepted, .accepted, .skipped] ∧
    r.supported = [1] ∧ ∃ T : Transcript Unit,
      T.Records sampleSuite thirdTime 0 (start (suite sampleFilter sampleSuite thirdTime) 0).2 ∧
      Gated sampleFilter sampleSuite T r := by
  have done : (start (suite sampleFilter sampleSuite thirdTime) 0).1 =
      .ok ⟨[.accepted, .skipped, .accepted, .accepted, .accepted, .skipped], [1], [2]⟩ := by
    decide
  refine ⟨_, done, rfl, rfl, ?_⟩
  exact results_gated sampleSuite_complete (by decide) sampleFilter thirdTime 0 done

end ChainConformance.Run
