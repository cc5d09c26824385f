import ChainConformance.Proofs.Outcome
import ChainConformance.Proofs.SortedMap
import ChainConformance.Run.Summary
import Mathlib.Data.List.Sort

/-!
# Verdicts and summaries

When an outcome earns each verdict, and which tests a summary lists under it:

* `judge_eq_falsePositive_iff`, `judge_eq_falseNegative_iff`, `judge_ofAnswer_prefersAccept`: the
  verdicts;
* `mem_indices_iff`, `indices_ascending`: the tests under one verdict;
* `exists_ofResults`: results that cover a manifest, and list features of it only, have a summary;
* `ofResults_accounts`: other results have none, and a summary has every test once, under its
  verdict.
-/

namespace ChainConformance

namespace Expectation

theorem judge_eq_falsePositive_iff {e : Expectation} {o : Outcome} :
    e.judge o = .falsePositive ↔ e = .fail ∧ o = .accepted := by
  cases e <;> cases o <;> decide

theorem judge_eq_falseNegative_iff {e : Expectation} {o : Outcome} :
    e.judge o = .falseNegative ↔ e = .pass ∧ o = .rejected := by
  cases e <;> cases o <;> decide

theorem judge_eq_warning_iff {e : Expectation} {o : Outcome} :
    e.judge o = .warning ↔ (e = .softFail ∧ o = .accepted) ∨ (e = .softPass ∧ o = .rejected) := by
  cases e <;> cases o <;> decide

theorem judge_eq_skipped_iff {e : Expectation} {o : Outcome} :
    e.judge o = .skipped ↔ o = .skipped := by
  cases e <;> cases o <;> decide

/-- The preferred answer is right. -/
theorem judge_ofAnswer_prefersAccept (e : Expectation) :
    e.judge (.ofAnswer e.prefersAccept) = .pass := by
  cases e <;> decide

end Expectation

namespace Summary

variable {m : SuiteManifest} {r : SuiteResults}

theorem mem_indices_iff {verdict : Verdict} {index : Nat} :
    index ∈ indices verdict (verdicts m r) ↔
      ∃ e o, m.expectations[index]? = some e ∧ r.outcomes[index]? = some o ∧
        e.judge o = verdict := by
  simp only [indices, verdicts, List.mem_map, List.mem_filter, List.mem_zipIdx_iff_getElem?,
    List.getElem?_zipWith, decide_eq_true_eq, Prod.exists]
  constructor
  · rintro ⟨v, i, ⟨judged, rfl⟩, rfl⟩
    cases expected : m.expectations[i]? with
    | none => simp [expected] at judged
    | some e =>
      cases outcome : r.outcomes[i]? with
      | none => simp [expected, outcome] at judged
      | some o => exact ⟨e, o, rfl, rfl, by simpa [expected, outcome] using judged⟩
  · rintro ⟨e, o, expected, outcome, judged⟩
    exact ⟨verdict, index, ⟨by simp [expected, outcome, judged], rfl⟩, rfl⟩

theorem indices_ascending (verdict : Verdict) :
    (indices verdict (verdicts m r)).Pairwise (· < ·) := by
  have kept : (indices verdict (verdicts m r)).Sublist ((verdicts m r).map (·.2)) :=
    List.filter_sublist.map _
  refine List.Pairwise.sublist kept ?_
  rw [verdicts, List.zipIdx_map_snd]
  exact List.pairwise_lt_range'

/-- The tests under a verdict are those of an ascending list with the same members. -/
theorem indices_eq {verdict : Verdict} {expected : List Nat} (ascending : expected.Pairwise (· < ·))
    (members : ∀ index, index ∈ indices verdict (verdicts m r) ↔ index ∈ expected) :
    indices verdict (verdicts m r) = expected :=
  (indices_ascending verdict).eq_of_mem_iff ascending members

theorem exists_names {features : List Feature}
    (named : ∀ f ∈ features, ∃ name, m.features.get? f = some name) :
    ∃ names, features.mapM (featureName m) = .ok names := by
  have each : ∀ f ∈ features, ∃ name, featureName m f = .ok name := by
    intro f member
    obtain ⟨name, found⟩ := named f member
    exact ⟨name, by rw [featureName, found]⟩
  obtain ⟨names, related⟩ := exists_forall₂_iff.mpr each
  exact ⟨names, mapM_eq_ok_iff.mpr related⟩

/-- Results that cover the manifest and list features of it only have a summary. -/
theorem exists_ofResults (length : r.outcomes.length = m.expectations.length)
    (supported : ∀ f ∈ r.supported, ∃ name, m.features.get? f = some name)
    (unsupported : ∀ f ∈ r.unsupported, ∃ name, m.features.get? f = some name) :
    ∃ names names', r.unsupported.mapM (featureName m) = .ok names' ∧ ofResults m r = .ok {
      supported := names
      unsupported := names'
      passed := indices .pass (verdicts m r)
      warnings := indices .warning (verdicts m r)
      skipped := indices .skipped (verdicts m r)
      falsePositives := indices .falsePositive (verdicts m r)
      falseNegatives := indices .falseNegative (verdicts m r) } := by
  obtain ⟨names, first⟩ := exists_names supported
  obtain ⟨names', second⟩ := exists_names unsupported
  refine ⟨names, names', second, ?_⟩
  rw [ofResults, first, second]
  simp only [length, ne_eq, not_true_eq_false, ↓reduceIte]
  rfl

/-! ## What a summary lists -/

/-- The tests that a summary lists under a verdict. -/
def listed (s : Summary) : Verdict → List Nat
  | .pass => s.passed
  | .warning => s.warnings
  | .falsePositive => s.falsePositives
  | .falseNegative => s.falseNegatives
  | .skipped => s.skipped

/-- The outcome of the test contradicts a hard expectation. -/
def Contradicted (m : SuiteManifest) (r : SuiteResults) (index : Nat) : Prop :=
  (m.expectations[index]? = some .fail ∧ r.outcomes[index]? = some .accepted) ∨
  (m.expectations[index]? = some .pass ∧ r.outcomes[index]? = some .rejected)

instance : DecidablePred (Contradicted m r) := fun _ => inferInstanceAs (Decidable (_ ∨ _))

/-- The summary lists every test once, under the verdict that its outcome earns, and names the
features. -/
structure Accounts (s : Summary) (m : SuiteManifest) (r : SuiteResults) : Prop where
  ascending : ∀ verdict, (s.listed verdict).Pairwise (· < ·)
  disjoint : ∀ verdict other, verdict ≠ other → (s.listed verdict).Disjoint (s.listed other)
  covered : ∀ index, (∃ verdict, index ∈ s.listed verdict) ↔ index < r.outcomes.length
  skipped : ∀ index, index ∈ s.skipped ↔ r.outcomes[index]? = some .skipped
  falsePositives : ∀ index, index ∈ s.falsePositives ↔
    m.expectations[index]? = some .fail ∧ r.outcomes[index]? = some .accepted
  falseNegatives : ∀ index, index ∈ s.falseNegatives ↔
    m.expectations[index]? = some .pass ∧ r.outcomes[index]? = some .rejected
  /-- A warning is an outcome that contradicts a soft expectation. -/
  warnings : ∀ index, index ∈ s.warnings ↔
    (m.expectations[index]? = some .softFail ∧ r.outcomes[index]? = some .accepted) ∨
    (m.expectations[index]? = some .softPass ∧ r.outcomes[index]? = some .rejected)
  /-- What is listed nowhere else has passed. -/
  passed : ∀ index, index ∈ s.passed ↔ index < r.outcomes.length ∧ index ∉ s.skipped ∧
    index ∉ s.falsePositives ∧ index ∉ s.falseNegatives ∧ index ∉ s.warnings
  supported : List.Forall₂ (fun f name => m.features.get? f = some name) r.supported s.supported
  unsupported :
    List.Forall₂ (fun f name => m.features.get? f = some name) r.unsupported s.unsupported
  failures : s.failureCount = (List.range r.outcomes.length).countP (Contradicted m r ·)

theorem featureName_eq_ok_iff {f : Feature} {name : String} :
    featureName m f = .ok name ↔ m.features.get? f = some name := by
  rw [featureName]
  cases m.features.get? f <;> simp

theorem exists_featureName_iff {f : Feature} :
    (∃ name, m.features.get? f = some name) ↔ f ∈ m.features.keys := by
  rw [← SortedMap.isSome_get?_iff, Option.isSome_iff_exists]

/-- When results have a summary, and what it consists of. -/
theorem ofResults_eq_ok_iff {s : Summary} : ofResults m r = .ok s ↔
    r.outcomes.length = m.expectations.length ∧ r.supported.mapM (featureName m) = .ok s.supported ∧
      r.unsupported.mapM (featureName m) = .ok s.unsupported ∧
      ∀ verdict, s.listed verdict = indices verdict (verdicts m r) := by
  rw [ofResults]
  by_cases length : r.outcomes.length = m.expectations.length
  · simp only [length, ne_eq, not_true_eq_false, ↓reduceIte, true_and, bind_eq_ok_iff,
      pure_eq_ok_iff]
    constructor
    · rintro ⟨names, first, names', second, rfl⟩
      exact ⟨first, second, fun verdict => by cases verdict <;> rfl⟩
    · rintro ⟨first, second, lists⟩
      refine ⟨s.supported, first, s.unsupported, second, ?_⟩
      simp only [← lists, listed]
  · simp only [length, ne_eq, not_false_eq_true, ↓reduceIte, false_and, iff_false]
    exact nofun

theorem exists_ofResults_iff : (∃ s, ofResults m r = .ok s) ↔
    r.outcomes.length = m.expectations.length ∧
      ∀ f, f ∈ r.supported ∨ f ∈ r.unsupported → f ∈ m.features.keys := by
  constructor
  · rintro ⟨s, made⟩
    obtain ⟨length, first, second, -⟩ := ofResults_eq_ok_iff.mp made
    have known {features : List Feature} {names : List String}
        (named : features.mapM (featureName m) = .ok names) {f : Feature} (member : f ∈ features) :
        f ∈ m.features.keys := by
      obtain ⟨name, -, here⟩ := exists_of_mem_left (mapM_eq_ok_iff.mp named) member
      exact exists_featureName_iff.mp ⟨name, featureName_eq_ok_iff.mp here⟩
    exact ⟨length, fun f listed => listed.elim (known first) (known second)⟩
  · rintro ⟨length, known⟩
    obtain ⟨names, names', -, made⟩ := exists_ofResults length
      (fun f member => exists_featureName_iff.mpr (known f (.inl member)))
      (fun f member => exists_featureName_iff.mpr (known f (.inr member)))
    exact ⟨_, made⟩

/-- A part of a list and a part that has nothing in common with it, counted together. -/
theorem length_filter_add {α : Type} {p q : α → Bool} {xs : List α}
    (apart : ∀ x ∈ xs, p x = true → q x = false) :
    (xs.filter p).length + (xs.filter q).length = xs.countP fun x => p x || q x := by
  induction xs with
  | nil => rfl
  | cons x rest ih =>
    obtain ⟨here, later⟩ := List.forall_mem_cons.mp apart
    have counted := ih later
    cases first : p x <;> cases second : q x <;> simp_all <;> omega

section
variable {s : Summary} (made : ofResults m r = .ok s)
include made

theorem mem_listed_iff {verdict : Verdict} {index : Nat} : index ∈ s.listed verdict ↔
    ∃ e o, m.expectations[index]? = some e ∧ r.outcomes[index]? = some o ∧ e.judge o = verdict := by
  obtain ⟨-, -, -, lists⟩ := ofResults_eq_ok_iff.mp made
  rw [lists, mem_indices_iff]

/-- If a verdict means one expectation and one outcome, it is given where the two meet. -/
theorem mem_listed_iff_of_means {verdict : Verdict} {expected : Expectation} {outcome : Outcome}
    (means : ∀ e o, Expectation.judge e o = verdict ↔ e = expected ∧ o = outcome) {index : Nat} :
    index ∈ s.listed verdict ↔
      m.expectations[index]? = some expected ∧ r.outcomes[index]? = some outcome := by
  simp only [mem_listed_iff made, means]
  constructor
  · rintro ⟨e, o, known, ran, rfl, rfl⟩
    exact ⟨known, ran⟩
  · rintro ⟨known, ran⟩
    exact ⟨_, _, known, ran, rfl, rfl⟩

/-- Every test has one verdict. -/
theorem exists_listed_iff {index : Nat} :
    (∃ verdict, index ∈ s.listed verdict) ↔ index < r.outcomes.length := by
  obtain ⟨length, -⟩ := ofResults_eq_ok_iff.mp made
  simp only [mem_listed_iff made]
  constructor
  · rintro ⟨verdict, e, o, -, ran, -⟩
    exact (List.getElem?_eq_some_iff.mp ran).1
  · intro below
    exact ⟨_, _, _, List.getElem?_eq_getElem (length ▸ below), List.getElem?_eq_getElem below, rfl⟩

theorem listed_disjoint {verdict other : Verdict} (ne : verdict ≠ other) :
    (s.listed verdict).Disjoint (s.listed other) := by
  intro index member member'
  obtain ⟨e, o, known, ran, judged⟩ := (mem_listed_iff made).mp member
  obtain ⟨e', o', known', ran', judged'⟩ := (mem_listed_iff made).mp member'
  rw [known, Option.some.injEq] at known'
  rw [ran, Option.some.injEq] at ran'
  exact ne (by rw [← judged, ← judged', known', ran'])

theorem listed_eq_filter {verdict : Verdict} {expected : Expectation} {outcome : Outcome}
    (means : ∀ e o, Expectation.judge e o = verdict ↔ e = expected ∧ o = outcome) :
    s.listed verdict = (List.range r.outcomes.length).filter fun index =>
      m.expectations[index]? = some expected ∧ r.outcomes[index]? = some outcome := by
  obtain ⟨-, -, -, lists⟩ := ofResults_eq_ok_iff.mp made
  rw [lists]
  refine indices_eq (List.pairwise_lt_range.filter _) fun index => ?_
  rw [← lists, mem_listed_iff_of_means made means]
  simp only [List.mem_filter, List.mem_range, decide_eq_true_eq, iff_and_self, and_imp]
  exact fun _ ran => (List.getElem?_eq_some_iff.mp ran).1

theorem failureCount_eq :
    s.failureCount = (List.range r.outcomes.length).countP (Contradicted m r ·) := by
  have accepted : s.falsePositives = _ :=
    listed_eq_filter made fun _ _ => Expectation.judge_eq_falsePositive_iff
  have rejected : s.falseNegatives = _ :=
    listed_eq_filter made fun _ _ => Expectation.judge_eq_falseNegative_iff
  rw [failureCount, accepted, rejected, length_filter_add]
  · refine List.countP_congr fun index _ => ?_
    rw [decide_eq_true_eq]
    simp [Contradicted]
  · intro index _ here
    simp_all

/-- A test has passed if no other verdict is given on it. -/
theorem mem_passed_iff {index : Nat} : index ∈ s.passed ↔
    index < r.outcomes.length ∧ index ∉ s.skipped ∧ index ∉ s.falsePositives ∧
      index ∉ s.falseNegatives ∧ index ∉ s.warnings := by
  constructor
  · intro member
    have only (other : Verdict) (ne : .pass ≠ other) : index ∉ s.listed other :=
      listed_disjoint made ne member
    exact ⟨(exists_listed_iff made).mp ⟨.pass, member⟩, only .skipped nofun,
      only .falsePositive nofun, only .falseNegative nofun, only .warning nofun⟩
  · rintro ⟨below, skipped, falsePositive, falseNegative, warning⟩
    obtain ⟨verdict, member⟩ := (exists_listed_iff made).mpr below
    cases verdict with
    | pass => exact member
    | warning => exact absurd member warning
    | falsePositive => exact absurd member falsePositive
    | falseNegative => exact absurd member falseNegative
    | skipped => exact absurd member skipped

theorem mem_warnings_iff {index : Nat} : index ∈ s.warnings ↔
    (m.expectations[index]? = some .softFail ∧ r.outcomes[index]? = some .accepted) ∨
    (m.expectations[index]? = some .softPass ∧ r.outcomes[index]? = some .rejected) := by
  change index ∈ s.listed .warning ↔ _
  simp only [mem_listed_iff made, Expectation.judge_eq_warning_iff]
  constructor
  · rintro ⟨e, o, known, ran, ⟨rfl, rfl⟩ | ⟨rfl, rfl⟩⟩
    · exact .inl ⟨known, ran⟩
    · exact .inr ⟨known, ran⟩
  · rintro (⟨known, ran⟩ | ⟨known, ran⟩)
    · exact ⟨_, _, known, ran, .inl ⟨rfl, rfl⟩⟩
    · exact ⟨_, _, known, ran, .inr ⟨rfl, rfl⟩⟩

theorem mem_skipped_iff {index : Nat} :
    index ∈ s.skipped ↔ r.outcomes[index]? = some .skipped := by
  obtain ⟨length, -⟩ := ofResults_eq_ok_iff.mp made
  change index ∈ s.listed .skipped ↔ _
  simp only [mem_listed_iff made, Expectation.judge_eq_skipped_iff]
  constructor
  · rintro ⟨e, o, -, ran, rfl⟩
    exact ran
  · intro ran
    have below := (List.getElem?_eq_some_iff.mp ran).1
    exact ⟨_, _, List.getElem?_eq_getElem (length ▸ below), ran, rfl⟩

theorem accounts_of_ofResults : s.Accounts m r where
  ascending verdict := by
    obtain ⟨-, -, -, lists⟩ := ofResults_eq_ok_iff.mp made
    rw [lists]
    exact indices_ascending verdict
  disjoint _ _ := listed_disjoint made
  covered _ := exists_listed_iff made
  skipped _ := mem_skipped_iff made
  falsePositives _ := mem_listed_iff_of_means made fun _ _ =>
    Expectation.judge_eq_falsePositive_iff
  falseNegatives _ := mem_listed_iff_of_means made fun _ _ =>
    Expectation.judge_eq_falseNegative_iff
  warnings _ := mem_warnings_iff made
  passed _ := mem_passed_iff made
  supported := by
    obtain ⟨-, first, -⟩ := ofResults_eq_ok_iff.mp made
    exact (mapM_eq_ok_iff.mp first).imp fun _ _ => featureName_eq_ok_iff.mp
  unsupported := by
    obtain ⟨-, -, second, -⟩ := ofResults_eq_ok_iff.mp made
    exact (mapM_eq_ok_iff.mp second).imp fun _ _ => featureName_eq_ok_iff.mp
  failures := failureCount_eq made

end

/-- Results have no summary if and only if their outcomes are not as many as the expectations, or
they list a feature that the manifest has no name for. A summary has each test in one of its lists,
all of which are ascending: the skipped tests, the hard failures of either kind, the warnings, and
the rest, which has passed. It has the names of the features in their order, and counts the outcomes
that contradict a hard expectation. -/
theorem ofResults_accounts (m : SuiteManifest) (r : SuiteResults) :
    ((∃ e, ofResults m r = .error e) ↔
      r.outcomes.length ≠ m.expectations.length ∨
      ∃ f, (f ∈ r.supported ∨ f ∈ r.unsupported) ∧ f ∉ m.features.keys) ∧
    ∀ s, ofResults m r = .ok s → s.Accounts m r := by
  refine ⟨?_, fun s made => accounts_of_ofResults made⟩
  rw [exists_error_iff, exists_ofResults_iff, not_and_or]
  refine or_congr Iff.rfl ?_
  simp only [not_forall, exists_prop]

/-- A manifest with every expectation. -/
def sampleManifest : SuiteManifest where
  features := .ofList [(2, "SECOND"), (1, "FIRST")]
  sanityIndex := 0
  representatives := .ofList [("FIRST", [1]), ("SECOND", [2, 3])]
  expectations := [.pass, .fail, .softPass, .softFail, .pass, .fail, .pass]

/-- Results that earn every verdict. -/
def sampleResults : SuiteResults :=
  ⟨[.accepted, .accepted, .rejected, .accepted, .rejected, .rejected, .skipped], [2], [1]⟩

theorem accounts_of_every_verdict : ∃ s, ofResults sampleManifest sampleResults = .ok s ∧
    s.Accounts sampleManifest sampleResults ∧ s.warnings = [2, 3] ∧ s.falsePositives = [1] ∧
    s.falseNegatives = [4] ∧ s.failureCount = 2 ∧ s.supported = ["SECOND"] := by
  have made : ofResults sampleManifest sampleResults =
      .ok ⟨["SECOND"], ["FIRST"], [0, 5], [2, 3], [6], [1], [4]⟩ := by decide
  exact ⟨_, made, (ofResults_accounts sampleManifest sampleResults).2 _ made, rfl, rfl, rfl, rfl,
    rfl⟩

end Summary

end ChainConformance
