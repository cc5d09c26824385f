import ChainConformance.Proofs.Run.Gating
import ChainConformance.Proofs.Run.Summary
import ChainConformance.Proofs.Suite.Manifest

/-!
# Scoring a run

The results of a run against the manifest of the same suite. Both look the suite up on their own,
and agree on every test and feature. Proved here:

* `Course.outcome_iff`: which outcome has which answer behind it;
* `mem_indices_iff_asked`: a hard failure in the summary is a test that was asked about and whose
  answer contradicts its expectation;
* `exists_results_of_right`, `Course.judge_of_right`: a client that answers as the tests prefer
  gets results, and what they say;
* `run_scored`: both for the whole way from the run to the summary.
-/

namespace ChainConformance

/-- The suite's look-ups succeed, its features are listed once and have names, and its tests
require listed features only. -/
structure Suite.WellFormed {σ : Type} (s : Suite σ) : Prop extends Suite.Complete s where
  distinct : s.features.Nodup
  named : ∀ f ∈ s.features, ∃ name, s.featureName f = .ok name
  listed : ∀ index < s.count, ∀ t, s.test index = .ok t → ∀ f ∈ t.features, f ∈ s.features

theorem Suite.WellFormed.exists_manifest {σ : Type} {s : Suite σ} (wellFormed : s.WellFormed) :
    ∃ m, SuiteManifest.ofSuite s = .ok m ∧ m.Describes s := by
  refine SuiteManifest.exists_describes wellFormed.tests wellFormed.named fun f listed => ?_
  obtain ⟨indices, represented, -⟩ := wellFormed.representatives f listed
  exact ⟨indices, represented⟩

namespace Run

variable {σ τ : Type}

/-- The client accepts just the tests that should be accepted, and never fails. -/
def AnswersRight (client : Client σ τ) : Prop :=
  ∀ index t state, (client index t state).1 = .ok t.expected.prefersAccept

/-! ## Outcomes and answers -/

theorem ofAnswer_injective {a b : Bool} (h : Outcome.ofAnswer a = .ofAnswer b) : a = b := by
  cases a <;> cases b <;> first | rfl | cases h

section
variable {filter : RunFilter} {s : Suite σ} {T : Transcript σ} {r : SuiteResults}
  {m : SuiteManifest} {index : Nat}

theorem Course.length_outcomes (course : Course filter s T (.ok r)) :
    r.outcomes.length = s.count := by
  cases course with
  | finished _ _ _ _ _ reported => rw [← reported.length_eq, List.length_range]

theorem Course.mem_features (course : Course filter s T (.ok r)) :
    ∀ f, f ∈ r.supported ∨ f ∈ r.unsupported → f ∈ s.features := by
  cases course with
  | finished =>
    intro f listed
    rcases listed with listed | listed <;> exact (List.mem_filter.mp listed).1

/-- An outcome other than being skipped is that of an answer about the test. -/
theorem Course.outcome_iff (course : Course filter s T (.ok r)) {accepted : Bool} :
    r.outcomes[index]? = some (.ofAnswer accepted) ↔
      ∃ x ∈ T.tests, x.index = index ∧ x.answer = .ok accepted := by
  have length := course.length_outcomes
  cases course with
  | @finished _ blocks chosen tests _ outcomes _ _ picked all _ reported =>
    constructor
    · intro here
      obtain ⟨there, -⟩ := List.getElem?_eq_some_iff.mp here
      obtain ⟨o, here', report⟩ := outcome_of_reported reported (length ▸ there)
      rw [here, Option.some.injEq] at here'
      rcases report with ⟨-, skipped⟩ | ⟨-, x, member, same, answer, heard, given⟩
      · exact absurd (here'.trans skipped) (ofAnswer_ne_skipped accepted)
      · exact ⟨x, member, same, ofAnswer_injective (here'.trans given) ▸ heard⟩
    · rintro ⟨x, member, rfl, answer⟩
      have asked : x.index ∈ chosen := all.1 ▸ List.mem_map_of_mem member
      obtain ⟨below, selected⟩ := (picked.2 _).mp asked
      obtain ⟨o, here, report⟩ := outcome_of_reported reported (List.mem_range.mp below)
      rcases report with ⟨unselected, -⟩ | ⟨-, y, member', same, other, heard, rfl⟩
      · exact absurd selected unselected
      · -- the test was asked about once, so this is the answer that the outcome is made of
        cases List.inj_on_of_nodup_map (all.nodup picked) member' member same
        rw [answer, Except.ok.injEq] at heard
        rw [heard]
        exact here

/-- If a verdict means one expectation and one answer, the summary lists under it the tests with
this expectation that were asked about and answered so. -/
theorem mem_indices_iff_asked {verdict : Verdict} {expected : Expectation} {accepted : Bool}
    (means : ∀ e o, Expectation.judge e o = verdict ↔ e = expected ∧ o = .ofAnswer accepted)
    (described : m.Describes s) (course : Course filter s T (.ok r))
    (found : ∀ x ∈ T.tests, s.test x.index = .ok x.test) :
    index ∈ Summary.indices verdict (Summary.verdicts m r) ↔
      ∃ x ∈ T.tests, x.index = index ∧ x.answer = .ok accepted ∧ x.test.expected = expected := by
  have agree : ∀ x ∈ T.tests, ∀ e, m.expectations[x.index]? = some e → e = x.test.expected := by
    intro x member e known
    obtain ⟨there, -⟩ := List.getElem?_eq_some_iff.mp known
    obtain ⟨t, present, known'⟩ := described.expectations x.index (described.length ▸ there)
    rw [found x member, Except.ok.injEq] at present
    rw [known, Option.some.injEq, ← present] at known'
    exact known'
  simp only [Summary.mem_indices_iff, means]
  constructor
  · rintro ⟨e, o, known, outcome, rfl, rfl⟩
    obtain ⟨x, member, rfl, answer⟩ := course.outcome_iff.mp outcome
    exact ⟨x, member, rfl, answer, (agree x member e known).symm⟩
  · rintro ⟨x, member, rfl, answer, rfl⟩
    have outcome := course.outcome_iff.mpr ⟨x, member, rfl, answer⟩
    obtain ⟨there, -⟩ := List.getElem?_eq_some_iff.mp outcome
    obtain ⟨t, -, known⟩ := described.expectations x.index (course.length_outcomes ▸ there)
    have same := agree x member _ known
    exact ⟨_, _, known, outcome, same, rfl⟩

/-- The results of a run that came to its end have a summary. -/
theorem Course.exists_summary (course : Course filter s T (.ok r)) (described : m.Describes s) :
    ∃ names names', r.unsupported.mapM (Summary.featureName m) = .ok names' ∧
      Summary.ofResults m r = .ok {
        supported := names
        unsupported := names'
        passed := Summary.indices .pass (Summary.verdicts m r)
        warnings := Summary.indices .warning (Summary.verdicts m r)
        skipped := Summary.indices .skipped (Summary.verdicts m r)
        falsePositives := Summary.indices .falsePositive (Summary.verdicts m r)
        falseNegatives := Summary.indices .falseNegative (Summary.verdicts m r) } := by
  have known : ∀ f ∈ s.features, ∃ name, m.features.get? f = some name := by
    intro f listed
    obtain ⟨name, -, here⟩ := described.features f listed
    exact ⟨name, here⟩
  refine Summary.exists_ofResults ?_ (fun f listed => ?_) (fun f listed => ?_)
  · rw [course.length_outcomes, described.length]
  · exact known f (course.mem_features f (.inl listed))
  · exact known f (course.mem_features f (.inr listed))

/-! ## The right answers -/

/-- The preferred answer agrees with every expectation. -/
theorem agrees_of_right {x : Exchange σ} (right : x.answer = .ok x.test.expected.prefersAccept) :
    x.Agrees := by
  refine ⟨⟨_, right⟩, ?_⟩
  rintro (⟨expected, answer⟩ | ⟨expected, answer⟩) <;>
    simp [right, expected, Expectation.prefersAccept] at answer

/-- If nothing contradicts an expectation, every feature is supported. -/
theorem Course.unsupported_eq_nil (course : Course filter s T (.ok r))
    (agrees : ∀ x ∈ T.all, x.Agrees) : r.unsupported = [] := by
  cases course with
  | @finished _ blocks _ tests supported _ _ probed _ _ upheld _ =>
    refine List.filter_eq_nil_iff.mpr fun f listed => ?_
    have firsts := List.map_fst_zip (Nat.le_of_eq probed.length_eq)
    obtain ⟨⟨g, block⟩, paired, rfl⟩ := List.mem_map.mp (firsts.symm ▸ listed)
    have holds : Upheld s.features blocks g := by
      refine ⟨block, paired, fun x member => (agrees x ?_).2⟩
      have inside : x ∈ blocks.flatten :=
        List.mem_flatten.mpr ⟨block, (List.of_mem_zip paired).2, member⟩
      simp [Transcript.all, inside]
    simp [(upheld g).mpr holds]

/-- With every feature supported, the filter alone decides what is skipped. -/
theorem Course.skipped_iff (course : Course filter s T (.ok r)) (wellFormed : s.WellFormed)
    (all : r.unsupported = []) (below : index < s.count) :
    r.outcomes[index]? = some .skipped ↔ filter.includesTest index = false := by
  have gated := course.gated wellFormed.toComplete wellFormed.distinct
  obtain ⟨t, found, skipped⟩ := gated.skipped index below
  rw [skipped, ← Bool.not_eq_true, RunFilter.includesTest_iff, not_not]
  refine ⟨fun h => h.resolve_right ?_, .inl⟩
  rintro ⟨f, required, missing⟩
  have listed := wellFormed.listed index below t found f required
  have there := (gated.complementary f listed).mpr missing
  simp [all] at there

/-- The verdict on each test of a client that answers right. -/
theorem Course.judge_of_right (course : Course filter s T (.ok r)) (wellFormed : s.WellFormed)
    (described : m.Describes s) (found : ∀ x ∈ T.tests, s.test x.index = .ok x.test)
    (right : ∀ x ∈ T.all, x.answer = .ok x.test.expected.prefersAccept) (below : index < s.count) :
    ∃ e o, m.expectations[index]? = some e ∧ r.outcomes[index]? = some o ∧
      e.judge o = if filter.includesTest index then .pass else .skipped := by
  have all := course.unsupported_eq_nil fun x member => agrees_of_right (right x member)
  have skipped := course.skipped_iff wellFormed all below
  obtain ⟨t, present, known⟩ := described.expectations index below
  by_cases included : filter.includesTest index = true
  · have ran : r.outcomes[index]? ≠ some .skipped := by simp [skipped, included]
    obtain ⟨x, accepted, only, answer, outcome⟩ :=
      (course.gated wellFormed.toComplete wellFormed.distinct).answered index below ran
    have member : x ∈ T.tests.filter (·.index = index) := by simp [only]
    obtain ⟨member, same⟩ : x ∈ T.tests ∧ x.index = index := by simpa using member
    -- the answer is about the test that the manifest has the expectation of
    have test : x.test = t := by
      rw [← same, found x member, Except.ok.injEq] at present
      exact present
    rw [right x (by simp [Transcript.all, member]), test, Except.ok.injEq] at answer
    refine ⟨_, _, known, outcome, ?_⟩
    rw [← answer, Expectation.judge_ofAnswer_prefersAccept, if_pos included]
  · rw [Bool.not_eq_true] at included
    exact ⟨_, _, known, skipped.mpr included, by simp [included, Expectation.judge]⟩

theorem Course.mem_indices_of_right (course : Course filter s T (.ok r)) (wellFormed : s.WellFormed)
    (described : m.Describes s) (found : ∀ x ∈ T.tests, s.test x.index = .ok x.test)
    (right : ∀ x ∈ T.all, x.answer = .ok x.test.expected.prefersAccept) {verdict : Verdict} :
    index ∈ Summary.indices verdict (Summary.verdicts m r) ↔
      index < s.count ∧ (if filter.includesTest index then .pass else .skipped) = verdict := by
  rw [Summary.mem_indices_iff]
  constructor
  · rintro ⟨e, o, known, outcome, rfl⟩
    obtain ⟨there, -⟩ := List.getElem?_eq_some_iff.mp outcome
    have below : index < s.count := course.length_outcomes ▸ there
    obtain ⟨e', o', known', outcome', verdict⟩ :=
      course.judge_of_right wellFormed described found right below
    rw [known, Option.some.injEq] at known'
    rw [outcome, Option.some.injEq] at outcome'
    rw [known', outcome']
    exact ⟨below, verdict.symm⟩
  · rintro ⟨below, rfl⟩
    exact course.judge_of_right wellFormed described found right below

/-- The tests under each verdict, for a client that answers right. -/
theorem Course.indices_of_right (course : Course filter s T (.ok r)) (wellFormed : s.WellFormed)
    (described : m.Describes s) (found : ∀ x ∈ T.tests, s.test x.index = .ok x.test)
    (right : ∀ x ∈ T.all, x.answer = .ok x.test.expected.prefersAccept) (verdict : Verdict) :
    Summary.indices verdict (Summary.verdicts m r) = (List.range s.count).filter fun index =>
      (if filter.includesTest index then .pass else .skipped) = verdict := by
  refine Summary.indices_eq (List.pairwise_lt_range.filter _) fun index => ?_
  rw [course.mem_indices_of_right wellFormed described found right]
  simp

end

/-! ## From the run to the summary -/

theorem found_of_records {s : Suite σ} {client : Client σ τ} {first : τ} {final : RunState τ}
    {T : Transcript σ} (records : T.Records s client first final) :
    ∀ x ∈ T.tests, s.test x.index = .ok x.test :=
  fun x member => records.dialogue.found x (by simp [Transcript.all, member])

/-- A client that answers right meets neither an error nor a contradicted sanity test. -/
theorem exists_results_of_right {s : Suite σ} (complete : s.Complete) (filter : RunFilter)
    {client : Client σ τ} (answers : AnswersRight client) (first : τ) :
    ∃ r, (start (suite filter s client) first).1 = .ok r ∧
      ∃ T : Transcript σ, T.Records s client first (start (suite filter s client) first).2 ∧
      Course filter s T (.ok r) ∧ ∀ x ∈ T.all, x.answer = .ok x.test.expected.prefersAccept := by
  obtain ⟨T, records, course⟩ := start_suite complete filter client first
  have right : ∀ x ∈ T.all, x.answer = .ok x.test.expected.prefersAccept := by
    intro x member
    obtain ⟨state, answer⟩ := records.dialogue.answers x member
    rw [← answer, answers]
  cases ended : (start (suite filter s client) first).1 with
  | ok r => exact ⟨r, rfl, T, records, ended ▸ course, right⟩
  | error e =>
    rw [ended] at course
    rcases course.of_error with contradicts | ⟨x, member, fails⟩
    · exact absurd contradicts (agrees_of_right (right _ List.mem_cons_self)).2
    · have agrees := agrees_of_right (right x member)
      exact absurd fails (Exchange.not_fails_of_answered agrees.1)

/-- The results of a run have a summary. A test is a false positive in it if and only if the client
was asked about it after the probes and accepted it although it must be rejected, and a false
negative if and only if the client rejected it although it must be accepted. The run of a client
that answers right has results; no feature is unsupported in them, every test passes that the filter
admits, and the others are skipped. -/
theorem run_scored {s : Suite σ} (wellFormed : s.WellFormed) (filter : RunFilter) :
    (∀ (client : Client σ τ) (first : τ) (r : SuiteResults),
      (start (suite filter s client) first).1 = .ok r →
      ∃ m summary, SuiteManifest.ofSuite s = .ok m ∧ Summary.ofResults m r = .ok summary ∧
      ∃ T : Transcript σ, T.Records s client first (start (suite filter s client) first).2 ∧
      Course filter s T (.ok r) ∧ ∀ index,
        (index ∈ summary.falsePositives ↔ ∃ x ∈ T.tests, x.index = index ∧
          x.answer = .ok true ∧ x.test.expected = .fail) ∧
        (index ∈ summary.falseNegatives ↔ ∃ x ∈ T.tests, x.index = index ∧
          x.answer = .ok false ∧ x.test.expected = .pass)) ∧
    ∀ (client : Client σ τ) (first : τ), AnswersRight client →
      ∃ r m summary, (start (suite filter s client) first).1 = .ok r ∧
      SuiteManifest.ofSuite s = .ok m ∧ Summary.ofResults m r = .ok summary ∧
      r.unsupported = [] ∧ summary.unsupported = [] ∧
      summary.passed = (List.range s.count).filter filter.includesTest ∧
      summary.skipped = (List.range s.count).filter (!filter.includesTest ·) ∧
      summary.warnings = [] ∧ summary.falsePositives = [] ∧ summary.falseNegatives = [] := by
  obtain ⟨m, made, described⟩ := wellFormed.exists_manifest
  constructor
  · intro client first r done
    obtain ⟨T, records, course⟩ := start_suite wellFormed.toComplete filter client first
    rw [done] at course
    obtain ⟨names, names', -, summary⟩ := course.exists_summary described
    have found := found_of_records records
    refine ⟨m, _, made, summary, T, records, course, fun index => ⟨?_, ?_⟩⟩
    · exact mem_indices_iff_asked (fun _ _ => Expectation.judge_eq_falsePositive_iff) described
        course found
    · exact mem_indices_iff_asked (fun _ _ => Expectation.judge_eq_falseNegative_iff) described
        course found
  · intro client first answers
    obtain ⟨r, done, T, records, course, right⟩ :=
      exists_results_of_right wellFormed.toComplete filter answers first
    have none := course.unsupported_eq_nil fun x member => agrees_of_right (right x member)
    obtain ⟨names, names', unnamed, summary⟩ := course.exists_summary described
    have listed := course.indices_of_right wellFormed described (found_of_records records) right
    refine ⟨r, m, _, done, made, summary, none, ?_, ?_, ?_, ?_, ?_, ?_⟩
    · rw [none, mapM_nil_eq_ok, Except.ok.injEq] at unnamed
      exact unnamed.symm
    · refine (listed .pass).trans (List.filter_congr fun index _ => ?_)
      cases filter.includesTest index <;> rfl
    · refine (listed .skipped).trans (List.filter_congr fun index _ => ?_)
      cases filter.includesTest index <;> rfl
    -- the verdicts that are neither passing nor skipped are given to no test
    all_goals
      refine (listed _).trans (List.filter_eq_nil_iff.mpr fun index _ => ?_)
      cases filter.includesTest index <;> decide

/-! ## The sample -/

theorem sampleSuite_wellFormed : sampleSuite.WellFormed where
  toComplete := sampleSuite_complete
  distinct := by decide
  named := by
    intro f member
    have known : f = 1 ∨ f = 2 := by simpa [sampleSuite] using member
    rcases known with rfl | rfl
    · exact ⟨"FIRST", rfl⟩
    · exact ⟨"SECOND", rfl⟩
  listed := by
    intro index below t found
    rcases index with _ | _ | _ | _ | _ | _ | index
    case succ => exact absurd below (by simp [sampleSuite])
    all_goals
      cases found
      simp [sampleSuite]

/-- A client that accepts the tests that should be accepted. -/
def faithful : Client Unit Nat := fun _ t shown => (.ok t.expected.prefersAccept, shown + 1)

/-- `thirdTime` accepts two tests of the sample that must be rejected, and both are false positives.
`faithful` passes all tests but the one that the filter leaves out. -/
theorem scored_of_thirdTime :
    (∃ m r summary, SuiteManifest.ofSuite sampleSuite = .ok m ∧
      (start (suite sampleFilter sampleSuite thirdTime) 0).1 = .ok r ∧
      Summary.ofResults m r = .ok summary ∧ summary.falsePositives = [2, 3] ∧
      ∃ T : Transcript Unit, ∃ x ∈ T.tests, x.index = 3 ∧
        T.Records sampleSuite thirdTime 0 (start (suite sampleFilter sampleSuite thirdTime) 0).2 ∧
        x.answer = .ok true ∧ x.test.expected = .fail) ∧
    ∃ m r summary, SuiteManifest.ofSuite sampleSuite = .ok m ∧
      (start (suite sampleFilter sampleSuite faithful) 0).1 = .ok r ∧
      Summary.ofResults m r = .ok summary ∧
      summary.passed = [0, 2, 3, 4, 5] ∧ summary.skipped = [1] := by
  obtain ⟨scored, ofRight⟩ := @run_scored Unit Nat sampleSuite sampleSuite_wellFormed sampleFilter
  constructor
  · have results : (start (suite sampleFilter sampleSuite thirdTime) 0).1 =
        .ok ⟨[.accepted, .skipped, .accepted, .accepted, .accepted, .skipped], [1], [2]⟩ := by
      decide
    obtain ⟨m, summary, made, done, T, records, -, lists⟩ := scored thirdTime 0 _ results
    have falsePositives : summary.falsePositives = [2, 3] := by
      have listed : (SuiteManifest.ofSuite sampleSuite).bind (fun m => (Summary.ofResults m
          ⟨[.accepted, .skipped, .accepted, .accepted, .accepted, .skipped], [1], [2]⟩).map
            Summary.falsePositives) = .ok [2, 3] := by decide
      simpa only [made, Except.bind, done, Except.map, Except.ok.injEq] using listed
    obtain ⟨x, member, same, answer, expected⟩ := (lists 3).1.mp (by simp [falsePositives])
    exact ⟨m, _, summary, made, results, done, falsePositives, T, x, member, same, records, answer,
      expected⟩
  · obtain ⟨r, m, summary, results, made, done, -, -, passed, skipped, -⟩ :=
      ofRight faithful 0 fun _ _ _ => rfl
    refine ⟨m, r, summary, made, results, done, passed.trans ?_, skipped.trans ?_⟩ <;> decide

end Run

end ChainConformance
