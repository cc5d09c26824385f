import ChainConformance.Proofs.Run.Phases

/-!
# The course of a run

`Transcript` keeps the questions of the three phases apart, and `Course` lists what can come of a
run: it ends at the first answer that is an error, at a contradicted sanity test, or after all
tests. Proved here, for every suite whose look-ups succeed and every client, with any state:

* `suite_ends`: a run follows its course;
* `Course.answered_or_failed`: only the last answer can be an error, which is then the result;
* `start_suite_ending`: a run without results met a contradicted sanity test or the client's error;
* `suite_follows_course`: what the client is asked, in which order, and how the run ends.
-/

namespace ChainConformance.Run

variable {σ τ : Type}

/-- The questions of a run by phase; of the probes, those of each feature apart. -/
structure Transcript (σ : Type) where
  sanity : Exchange σ
  probes : List (List (Exchange σ))
  tests : List (Exchange σ)

namespace Transcript

/-- All questions, in order. -/
def all (T : Transcript σ) : List (Exchange σ) := T.sanity :: (T.probes.flatten ++ T.tests)

/-- These are the questions that the run put to its client, from the first state on. -/
structure Records (T : Transcript σ) (s : Suite σ) (client : Client σ τ) (first : τ)
    (final : RunState τ) : Prop where
  sanity : T.sanity.index = s.sanityIndex
  dialogue : Dialogue s client first T.all final.client
  calls : final.calls.toList = T.all.map (·.index)

end Transcript

/-- What can come of a run. -/
inductive Course (filter : RunFilter) (s : Suite σ) :
    Transcript σ → Except Error SuiteResults → Prop
  | sanityFailed {x : Exchange σ} {e : Error} (fails : x.Fails e) :
      Course filter s ⟨x, [], []⟩ (.error e)
  | sanityContradicted {x : Exchange σ} {accepted : Bool} (answer : x.answer = .ok accepted)
      (contradicts : x.Contradicts) :
      Course filter s ⟨x, [], []⟩
        (.error (.sanityContradicted s.name x.test.expected (.ofAnswer accepted)))
  | probeFailed {x : Exchange σ} {before after : List Feature} {f : Feature}
      {blocks : List (List (Exchange σ))} {last : List (Exchange σ)} {e : Error}
      (agrees : x.Agrees) (order : s.features = before ++ f :: after)
      (probed : List.Forall₂ (Probed s) before blocks) (broken : BrokenOff s f e last) :
      Course filter s ⟨x, blocks ++ [last], []⟩ (.error e)
  | testFailed {x : Exchange σ} {blocks : List (List (Exchange σ))} {chosen : List Nat}
      {tests : List (Exchange σ)} {e : Error} (agrees : x.Agrees)
      (probed : List.Forall₂ (Probed s) s.features blocks)
      (picked : Picks (Selects filter s (Upheld s.features blocks)) (List.range s.count) chosen)
      (stops : Until Exchange.Answered (Exchange.Fails e) chosen tests) :
      Course filter s ⟨x, blocks, tests⟩ (.error e)
  | finished {x : Exchange σ} {blocks : List (List (Exchange σ))} {chosen : List Nat}
      {tests : List (Exchange σ)} {supported : List Feature} {outcomes : List Outcome}
      (agrees : x.Agrees) (probed : List.Forall₂ (Probed s) s.features blocks)
      (picked : Picks (Selects filter s (Upheld s.features blocks)) (List.range s.count) chosen)
      (all : Through Exchange.Answered chosen tests)
      (upheld : ∀ f, f ∈ supported ↔ Upheld s.features blocks f)
      (reported : List.Forall₂ (Reported (Selects filter s (Upheld s.features blocks)) tests)
        (List.range s.count) outcomes) :
      Course filter s ⟨x, blocks, tests⟩ (.ok ⟨outcomes,
        s.features.filter (supported.contains ·), s.features.filter (!supported.contains ·)⟩)

/-! ## The whole run -/

/-- A run follows its course, whatever came before it. -/
theorem suite_ends {s : Suite σ} (complete : s.Complete) (filter : RunFilter)
    (client : Client σ τ) (before : RunState τ) :
    ∃ (T : Transcript σ) (result : Except Error SuiteResults) (final : RunState τ),
      Ends (suite filter s client) before result final ∧ T.sanity.index = s.sanityIndex ∧
      Asked s client before T.all final ∧ Course filter s T result := by
  obtain ⟨told, ends₀, asked₀⟩ :=
    notify_ends s client (.suiteStarted s.name s.count) before
  obtain ⟨x, checked, sane, index, ends₁, asked₁, check⟩ :=
    checkSanity_ends client complete.sanity told
  have asked₁ := asked₀.append asked₁
  cases check with
  | failed fails =>
    exact ⟨⟨x, [], []⟩, _, sane, ends₀.bind ends₁.bind_error, index, asked₁, .sanityFailed fails⟩
  | contradicted answer contradicts =>
    exact ⟨⟨x, [], []⟩, _, sane, ends₀.bind ends₁.bind_error, index, asked₁,
      .sanityContradicted answer contradicts⟩
  | passed agrees =>
    obtain ⟨blocks, found, probed, ends₂, asked₂, probing⟩ :=
      probeFeatures_ends s client complete.representatives sane
    have asked₂ := asked₁.append asked₂
    cases probing with
    | failed order all broken =>
      refine ⟨⟨x, _, []⟩, _, probed, ends₀.bind (ends₁.bind ends₂.bind_error), index, ?_,
        .probeFailed agrees order all broken⟩
      simpa [Transcript.all] using asked₂
    | @finished _ supported all upheld =>
      obtain ⟨tests, reported, ran, ends₃, asked₃, testing⟩ :=
        runTests_ends filter s client supported (fun i (member : i ∈ List.range s.count) =>
          complete.tests i (List.mem_range.mp member)) probed
      have asked₃ := asked₂.append asked₃
      have same : (· ∈ supported) = Upheld s.features blocks := funext fun f => propext (upheld f)
      rw [same] at testing
      cases testing with
      | failed picked stops =>
        exact ⟨⟨x, blocks, tests⟩, _, ran,
          ends₀.bind (ends₁.bind (ends₂.bind ends₃.bind_error)), index, asked₃,
          .testFailed agrees all picked stops⟩
      | finished picked through reported =>
        obtain ⟨final, ends₄, asked₄⟩ :=
          notify_ends s client (.suiteFinished s.name) ran
        refine ⟨⟨x, blocks, tests⟩, _, final, ends₀.bind (ends₁.bind (ends₂.bind (ends₃.bind
          (ends₄.bind (ends_pure _))))), index, ?_,
          .finished agrees all picked through upheld reported⟩
        simpa [Transcript.all] using asked₃.append asked₄

/-- The same for a run from the client's first state. -/
theorem start_suite {s : Suite σ} (complete : s.Complete) (filter : RunFilter)
    (client : Client σ τ) (first : τ) :
    ∃ T : Transcript σ, T.Records s client first (start (suite filter s client) first).2 ∧
      Course filter s T (start (suite filter s client) first).1 := by
  obtain ⟨T, result, final, ends, index, asked, course⟩ :=
    suite_ends complete filter client ⟨first, #[], #[]⟩
  have ended : start (suite filter s client) first = (result, final) := ends
  rw [ended]
  exact ⟨T, ⟨index, asked.dialogue, asked.calls⟩, course⟩

/-! ## Errors end a run -/

theorem Until.answered {bad : Exchange σ → Prop} {good : Exchange σ → Prop} {indices : List Nat}
    {xs : List (Exchange σ)} (h : Until good bad indices xs)
    (answered : ∀ x, good x → x.Answered) (last : ∀ x, bad x → x.Answered) :
    ∀ x ∈ xs, x.Answered := by
  obtain ⟨before, x, after, rfl, -, all, ends⟩ := h
  intro y member
  rcases List.mem_append.mp member with member | member
  · exact answered y (all y member)
  · rw [List.mem_singleton.mp member]
    exact last x ends

theorem Probed.answered {s : Suite σ} {f : Feature} {block : List (Exchange σ)}
    (h : Probed s f block) : ∀ x ∈ block, x.Answered := by
  obtain ⟨indices, -, through | stops⟩ := h
  · exact fun x member => (through.2 x member).1
  · exact stops.answered (fun _ agrees => agrees.1) fun _ contradicts => contradicts.answered

theorem answered_of_probed {s : Suite σ} {features : List Feature}
    {blocks : List (List (Exchange σ))} (h : List.Forall₂ (Probed s) features blocks) :
    ∀ x ∈ blocks.flatten, x.Answered := by
  induction h with
  | nil => simp
  | cons probed _ ih =>
    intro x member
    rcases List.mem_append.mp (List.flatten_cons ▸ member) with here | later
    · exact probed.answered x here
    · exact ih x later

/-- After answers, questions up to a failure end in a failure, the only one. -/
theorem Until.last_fails {good : Exchange σ → Prop} {e : Error} {indices : List Nat}
    {front xs : List (Exchange σ)} (h : Until good (Exchange.Fails e) indices xs)
    (answered : ∀ x, good x → x.Answered) (sound : ∀ y ∈ front, y.Answered) :
    ∃ before x, front ++ xs = before ++ [x] ∧ (∀ y ∈ before, y.Answered) ∧ x.Fails e := by
  obtain ⟨before, x, after, rfl, -, all, fails⟩ := h
  refine ⟨front ++ before, x, (List.append_assoc ..).symm, ?_, fails⟩
  intro y member
  rcases List.mem_append.mp member with member | member
  · exact sound y member
  · exact answered y (all y member)

/-- All questions were answered, or all but the last, which failed with the result of the run. -/
theorem Course.answered_or_failed {filter : RunFilter} {s : Suite σ} {T : Transcript σ}
    {result : Except Error SuiteResults} (h : Course filter s T result) :
    (∀ x ∈ T.all, x.Answered) ∨ ∃ before x e, T.all = before ++ [x] ∧
      (∀ y ∈ before, y.Answered) ∧ x.Fails e ∧ result = .error e := by
  cases h with
  | @sanityFailed x e fails => exact .inr ⟨[], x, e, rfl, by simp, fails, rfl⟩
  | sanityContradicted answer _ =>
    refine .inl fun y member => ?_
    rw [List.mem_singleton.mp member]
    exact ⟨_, answer⟩
  | @probeFailed x _ _ _ blocks last e agrees _ probed broken =>
    obtain ⟨indices, -, stops⟩ := broken
    have sound : ∀ y ∈ x :: blocks.flatten, y.Answered :=
      List.forall_mem_cons.mpr ⟨agrees.1, answered_of_probed probed⟩
    obtain ⟨before, y, order, answered, fails⟩ := stops.last_fails (fun _ h => h.1) sound
    exact .inr ⟨before, y, e, by simpa [Transcript.all] using order, answered, fails, rfl⟩
  | @testFailed x blocks _ tests e agrees probed _ stops =>
    have sound : ∀ y ∈ x :: blocks.flatten, y.Answered :=
      List.forall_mem_cons.mpr ⟨agrees.1, answered_of_probed probed⟩
    obtain ⟨before, y, order, answered, fails⟩ := stops.last_fails (fun _ h => h) sound
    exact .inr ⟨before, y, e, order, answered, fails, rfl⟩
  | finished agrees probed _ all _ _ =>
    refine .inl (List.forall_mem_cons.mpr ⟨agrees.1, List.forall_mem_append.mpr ⟨?_, all.2⟩⟩)
    exact answered_of_probed probed

/-- Nothing is asked after a failure, and the run has no results. -/
theorem Course.ends_at_failure {filter : RunFilter} {s : Suite σ} {T : Transcript σ}
    {result : Except Error SuiteResults} (h : Course filter s T result)
    {before after : List (Exchange σ)} {x : Exchange σ} {e : Error}
    (order : T.all = before ++ x :: after) (fails : x.Fails e) :
    after = [] ∧ result = .error e := by
  rcases h.answered_or_failed with answered | ⟨front, last, e', order', answered, fails', ended⟩
  · have member : x ∈ T.all := by simp [order]
    exact absurd fails (Exchange.not_fails_of_answered (answered x member))
  · -- the failing question is none of those before the last one, so it is the last one
    rcases after.eq_nil_or_concat with rfl | ⟨inner, y, rfl⟩
    · have lists := order.symm.trans order'
      obtain ⟨-, rfl⟩ := List.append_inj' lists rfl |>.imp_right List.singleton_inj.mp
      rw [Exchange.Fails, fails] at fails'
      cases fails'
      exact ⟨rfl, ended⟩
    · have lists : (before ++ x :: inner) ++ [y] = front ++ [last] := by
        rw [← order', order]
        simp
      have same := (List.append_inj' lists rfl).1
      have member : x ∈ front := by simp [← same]
      exact absurd fails (Exchange.not_fails_of_answered (answered x member))

/-- A contradicted sanity test is the only one that is asked about. -/
theorem Course.ends_at_contradiction {filter : RunFilter} {s : Suite σ} {T : Transcript σ}
    {result : Except Error SuiteResults} (h : Course filter s T result)
    (contradicts : T.sanity.Contradicts) : T.all = [T.sanity] ∧
      ∃ accepted, T.sanity.answer = .ok accepted ∧ result =
        .error (.sanityContradicted s.name T.sanity.test.expected (.ofAnswer accepted)) := by
  cases h with
  | sanityFailed fails =>
    exact absurd fails (Exchange.not_fails_of_answered contradicts.answered)
  | sanityContradicted answer _ => exact ⟨rfl, _, answer, rfl⟩
  | probeFailed agrees _ _ _ => exact absurd contradicts agrees.2
  | testFailed agrees _ _ _ => exact absurd contradicts agrees.2
  | finished agrees _ _ _ _ _ => exact absurd contradicts agrees.2

/-! ## How a run can end -/

/-- A run without results met an error, or a contradicted sanity test. -/
theorem Course.of_error {filter : RunFilter} {s : Suite σ} {T : Transcript σ} {e : Error}
    (course : Course filter s T (.error e)) :
    T.sanity.Contradicts ∨ ∃ x ∈ T.all, x.Fails e := by
  cases course with
  | sanityFailed fails => exact .inr ⟨_, List.mem_cons_self, fails⟩
  | sanityContradicted _ contradicts => exact .inl contradicts
  | probeFailed _ _ _ broken =>
    obtain ⟨indices, -, before, x, after, rfl, -, -, fails⟩ := broken
    exact .inr ⟨x, by simp [Transcript.all], fails⟩
  | testFailed _ _ _ stops =>
    obtain ⟨before, x, after, rfl, -, -, fails⟩ := stops
    exact .inr ⟨x, by simp [Transcript.all], fails⟩

/-- The last answer is given in the state that the ones before it have left. -/
theorem Dialogue.last {s : Suite σ} {client : Client σ τ} {first final : τ}
    {xs : List (Exchange σ)} {x : Exchange σ} (h : Dialogue s client first (xs ++ [x]) final) :
    ∃ state, client x.index x.test state = (x.answer, final) := by
  induction xs generalizing first with
  | nil =>
    cases h with
    | cons _ answers later =>
      cases later
      exact ⟨first, answers⟩
  | cons y rest ih =>
    cases h with
    | cons _ _ later => exact ih later

/-- How a run can end that finds all it looks up: with results, with a contradiction of the sanity
test, or with an error of the client, which is its last answer. -/
inductive Ending (s : Suite σ) (client : Client σ τ) (final : RunState τ) :
    Except Error SuiteResults → Prop
  | results (r : SuiteResults) : Ending s client final (.ok r)
  | contradicted {t : TestCase σ} {accepted : Bool} {state : τ}
      (found : s.test s.sanityIndex = .ok t)
      (answers : client s.sanityIndex t state = (.ok accepted, final.client))
      (contradicts : t.expected.contradicts (.ofAnswer accepted) = true) :
      Ending s client final
        (.error (.sanityContradicted s.name t.expected (.ofAnswer accepted)))
  | clientFailed {index : Nat} {t : TestCase σ} {state : τ} {e : Error}
      (found : s.test index = .ok t) (last : final.calls.toList.getLast? = some index)
      (answers : client index t state = (.error e, final.client)) :
      Ending s client final (.error e)

theorem start_suite_ending {s : Suite σ} (complete : s.Complete) (filter : RunFilter)
    (client : Client σ τ) (first : τ) : Ending s client (start (suite filter s client) first).2
      (start (suite filter s client) first).1 := by
  obtain ⟨T, records, course⟩ := start_suite complete filter client first
  have dialogue := records.dialogue
  rcases course.answered_or_failed with answered | ⟨before, x, e, order, -, fails, ended⟩
  · cases ended : (start (suite filter s client) first).1 with
    | ok r => exact .results r
    | error e =>
      rw [ended] at course
      rcases course.of_error with contradicts | ⟨x, member, fails⟩
      · -- the sanity test is the only one that was asked about
        obtain ⟨only, accepted, answer, same⟩ := course.ends_at_contradiction contradicts
        rw [only, ← List.nil_append [T.sanity]] at dialogue
        obtain ⟨state, answers⟩ := dialogue.last
        have found := dialogue.found T.sanity (by simp)
        rw [records.sanity] at answers found
        rw [Except.error.inj same]
        exact .contradicted found (answer ▸ answers)
          ((Exchange.contradicts_iff answer).mp contradicts)
      · exact absurd fails (Exchange.not_fails_of_answered (answered x member))
  · rw [order] at dialogue
    obtain ⟨state, answers⟩ := dialogue.last
    rw [fails] at answers
    rw [ended]
    refine .clientFailed (dialogue.found x (by simp)) ?_ answers
    rw [records.calls, order, List.map_append, List.map_singleton, List.getLast?_concat]

/-- The client is asked about the sanity test; if the answer does not contradict it, about the
representatives of every feature up to the first contradiction; and then about every selected test,
in ascending order. A contradicted sanity test ends the run after one question, and an error ends
it at the question that it answers. -/
theorem suite_follows_course {s : Suite σ} (complete : s.Complete) (filter : RunFilter)
    (client : Client σ τ) (first : τ) :
    ∃ T : Transcript σ, T.Records s client first (start (suite filter s client) first).2 ∧
      Course filter s T (start (suite filter s client) first).1 ∧
      (T.sanity.Contradicts →
        (start (suite filter s client) first).2.calls = #[s.sanityIndex] ∧
        ∃ accepted, T.sanity.answer = .ok accepted ∧
          (start (suite filter s client) first).1 =
            .error (.sanityContradicted s.name T.sanity.test.expected (.ofAnswer accepted))) ∧
      ∀ before x after e, T.all = before ++ x :: after → x.Fails e →
        after = [] ∧ (start (suite filter s client) first).1 = .error e := by
  obtain ⟨T, records, course⟩ := start_suite complete filter client first
  refine ⟨T, records, course, fun contradicts => ?_, fun _ _ _ _ => course.ends_at_failure⟩
  obtain ⟨only, ended⟩ := course.ends_at_contradiction contradicts
  refine ⟨Array.toList_inj.mp ?_, ended⟩
  rw [records.calls, only, ← records.sanity]
  rfl

/-! ## A sample -/

/-- A suite with a feature for its second test and one for its fourth. -/
def sampleSuite : Suite Unit :=
  let test (expected : Expectation) (features : List Feature) : TestCase Unit :=
    ⟨(), expected, "sample.localhost", features, .null⟩
  { name := "sample"
    count := 6
    test := Suite.testOf "sample" #[test .pass [], test .pass [], test .fail [1], test .fail [],
      test .softFail [1], test .pass [1, 2]]
    sanityIndex := 0
    features := [1, 2]
    featureName := fun f => if f = 1 then .ok "FIRST" else if f = 2 then .ok "SECOND"
      else .error (.unknownFeature "sample" f)
    representatives := fun f => if f = 1 then .ok [1, 2] else if f = 2 then .ok [3, 1]
      else .error (.unknownFeature "sample" f) }

theorem sampleSuite_complete : sampleSuite.Complete := by
  have present : ∀ index < 6, ∃ t, sampleSuite.test index = .ok t :=
    fun index below => Suite.exists_testOf_iff.mpr below
  refine ⟨present 0 (by decide), fun f member => ?_, present⟩
  have known : f = 1 ∨ f = 2 := by simpa [sampleSuite] using member
  rcases known with rfl | rfl
  · exact ⟨[1, 2], rfl, fun index listed => present index (by revert index; decide)⟩
  · exact ⟨[3, 1], rfl, fun index listed => present index (by revert index; decide)⟩

/-- The tests but the second one. -/
def sampleFilter : RunFilter := ⟨none, some ⟨[⟨0, 0, by decide⟩, ⟨2, 9, by decide⟩]⟩⟩

/-- A client that rejects nothing but the third chain that it is shown. -/
def thirdTime : Client Unit Nat := fun _ _ shown => (.ok (shown ≠ 2), shown + 1)

/-- The second feature is refuted by its first representative, so its second one is not asked
about, and neither is the last test. -/
theorem course_of_thirdTime :
    (start (suite sampleFilter sampleSuite thirdTime) 0).2.calls = #[0, 1, 2, 3, 0, 2, 3, 4] ∧
    ∃ T : Transcript Unit,
      T.Records sampleSuite thirdTime 0 (start (suite sampleFilter sampleSuite thirdTime) 0).2 ∧
      Course sampleFilter sampleSuite T (start (suite sampleFilter sampleSuite thirdTime) 0).1 := by
  obtain ⟨T, records, course, -, -⟩ :=
    suite_follows_course sampleSuite_complete sampleFilter thirdTime 0
  exact ⟨by decide, T, records, course⟩

end ChainConformance.Run
