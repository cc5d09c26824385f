import ChainConformance.Proofs.Run.Transcript

/-!
# The phases of a run

A run of a suite asks its client in three phases: about the sanity test, about the representatives
of the features, and about the tests that remain. Proved here, for a suite whose look-ups succeed,
is what each phase asks and how it ends:

* `checkSanity_ends`: one question, which may fail or contradict its expectation (`SanityCheck`);
* `probe_ends`, `probeFeatures_ends`: every feature is probed up to its first contradiction
  (`Probing`, `FeatureProbing`);
* `runTest_ends`, `runTests_ends`: the selected tests are asked about once each, in their order
  (`Testing`).

An answer that is an error ends each phase, and is its result.
-/

namespace ChainConformance

/-- The filter has intervals, and the index lies in none of them. -/
def RunFilter.LeavesOut (filter : RunFilter) (index : Nat) : Prop :=
  ∃ set, filter.tests = some set ∧ set.intervals ≠ [] ∧
    ∀ r ∈ set.intervals, ¬ (r.first.toNat ≤ index ∧ index ≤ r.last.toNat)

theorem RunFilter.includesTest_iff {filter : RunFilter} {index : Nat} :
    filter.includesTest index = true ↔ ¬ filter.LeavesOut index := by
  rw [includesTest, LeavesOut]
  cases filter.tests with
  | none => simp
  | some set =>
    cases intervals : set.intervals with
    | nil => simp [IndexSet.isEmpty, intervals]
    | cons first others =>
      simp [IndexSet.isEmpty, IndexSet.contains, Interval.contains, intervals]
      grind

/-- Every look-up that a run makes in the suite succeeds. -/
structure Suite.Complete {σ : Type} (s : Suite σ) : Prop where
  sanity : ∃ t, s.test s.sanityIndex = .ok t
  representatives : ∀ f ∈ s.features, ∃ indices, s.representatives f = .ok indices ∧
    ∀ index ∈ indices, ∃ t, s.test index = .ok t
  tests : ∀ index < s.count, ∃ t, s.test index = .ok t

theorem Suite.testOf_eq_ok_iff {σ : Type} {name : String} {tests : Array (TestCase σ)}
    {index : Nat} {t : TestCase σ} :
    Suite.testOf name tests index = .ok t ↔ tests[index]? = some t := by
  rw [Suite.testOf]
  cases tests[index]? <;> simp

theorem Suite.exists_testOf_iff {σ : Type} {name : String} {tests : Array (TestCase σ)}
    {index : Nat} : (∃ t, Suite.testOf name tests index = .ok t) ↔ index < tests.size := by
  simp only [Suite.testOf_eq_ok_iff, Array.getElem?_eq_some_iff]
  exact ⟨fun ⟨_, below, _⟩ => below, fun below => ⟨_, below, rfl⟩⟩

namespace Run

variable {σ τ : Type}

/-! ## Probing a feature -/

/-- What comes of the question whether no representative contradicts its expectation. -/
inductive Probing (indices : List Nat) : List (Exchange σ) → Except Error Bool → Prop
  | upheld {xs : List (Exchange σ)} (all : Through Exchange.Agrees indices xs) :
      Probing indices xs (.ok true)
  | refuted {xs : List (Exchange σ)}
      (stops : Until Exchange.Agrees Exchange.Contradicts indices xs) :
      Probing indices xs (.ok false)
  | failed {xs : List (Exchange σ)} {e : Error}
      (stops : Until Exchange.Agrees (Exchange.Fails e) indices xs) : Probing indices xs (.error e)

theorem Probing.cons {indices : List Nat} {x : Exchange σ} {xs : List (Exchange σ)}
    {result : Except Error Bool} (agrees : x.Agrees) (h : Probing indices xs result) :
    Probing (x.index :: indices) (x :: xs) result := by
  cases h with
  | upheld all => exact .upheld (all.cons agrees)
  | refuted stops => exact .refuted (stops.cons agrees)
  | failed stops => exact .failed (stops.cons agrees)

theorem probe_ends (s : Suite σ) (client : Client σ τ) {indices : List Nat}
    (found : ∀ index ∈ indices, ∃ t, s.test index = .ok t) (before : RunState τ) :
    ∃ xs result after, Ends (probe s client indices) before result after ∧
      Asked s client before xs after ∧ Probing indices xs result := by
  induction indices generalizing before with
  | nil => exact ⟨[], .ok true, before, ends_pure _, asked_nil _, .upheld .nil⟩
  | cons index rest ih =>
    obtain ⟨t, here⟩ := found index List.mem_cons_self
    obtain ⟨x, middle, rfl, rfl, ends, asked⟩ := ask_ends here client before
    have lookUp := ends_found here before
    cases answer : x.answer with
    | error e =>
      rw [answer] at ends
      exact ⟨[x], .error e, middle, lookUp.bind ends.bind_error, asked, .failed (.here answer)⟩
    | ok accepted =>
      rw [answer] at ends
      by_cases contradicts : x.Contradicts
      · have stop := (Exchange.contradicts_iff answer).mp contradicts
        refine ⟨[x], .ok false, middle, lookUp.bind (ends.bind ?_), asked,
          .refuted (.here contradicts)⟩
        simp only [stop, ↓reduceIte]
        exact ends_pure _
      · have go := (Exchange.contradicts_iff answer).not.mp contradicts
        obtain ⟨xs, result, after, later, asked', probing⟩ :=
          ih (fun i member => found i (List.mem_cons_of_mem _ member)) middle
        refine ⟨x :: xs, result, after, lookUp.bind (ends.bind ?_), asked.append asked',
          probing.cons ⟨⟨accepted, answer⟩, contradicts⟩⟩
        simp only [go]
        exact later

/-! ## Probing all features -/

/-- The representatives of the feature were asked about, up to the first contradiction. -/
def Probed (s : Suite σ) (f : Feature) (block : List (Exchange σ)) : Prop :=
  ∃ indices, s.representatives f = .ok indices ∧
    (Through Exchange.Agrees indices block ∨
      Until Exchange.Agrees Exchange.Contradicts indices block)

/-- The representatives of the feature were asked about, without a contradiction, up to an error. -/
def BrokenOff (s : Suite σ) (f : Feature) (e : Error) (block : List (Exchange σ)) : Prop :=
  ∃ indices, s.representatives f = .ok indices ∧
    Until Exchange.Agrees (Exchange.Fails e) indices block

/-- The feature was probed without a contradiction. -/
def Upheld (features : List Feature) (blocks : List (List (Exchange σ))) (f : Feature) : Prop :=
  ∃ block, (f, block) ∈ features.zip blocks ∧ ∀ x ∈ block, ¬ x.Contradicts

theorem Through.not_contradicts {indices : List Nat} {xs : List (Exchange σ)}
    (h : Through Exchange.Agrees indices xs) : ∀ x ∈ xs, ¬ x.Contradicts :=
  fun x member => (h.2 x member).2

theorem Until.contradicts {indices : List Nat} {xs : List (Exchange σ)}
    (h : Until Exchange.Agrees Exchange.Contradicts indices xs) : ∃ x ∈ xs, x.Contradicts := by
  obtain ⟨before, x, after, rfl, -, -, contradicts⟩ := h
  exact ⟨x, by simp, contradicts⟩

theorem upheld_cons {f g : Feature} {features : List Feature} {block : List (Exchange σ)}
    {blocks : List (List (Exchange σ))} : Upheld (f :: features) (block :: blocks) g ↔
      (g = f ∧ ∀ x ∈ block, ¬ x.Contradicts) ∨ Upheld features blocks g := by
  simp [Upheld, or_and_right, exists_or, and_assoc]

/-- What comes of probing features one after the other: those that hold, or an error. -/
inductive FeatureProbing (s : Suite σ) (features : List Feature) :
    List (List (Exchange σ)) → Except Error (List Feature) → Prop
  | finished {blocks : List (List (Exchange σ))} {supported : List Feature}
      (probed : List.Forall₂ (Probed s) features blocks)
      (upheld : ∀ f, f ∈ supported ↔ Upheld features blocks f) :
      FeatureProbing s features blocks (.ok supported)
  | failed {before after : List Feature} {f : Feature} {blocks : List (List (Exchange σ))}
      {last : List (Exchange σ)} {e : Error} (order : features = before ++ f :: after)
      (probed : List.Forall₂ (Probed s) before blocks) (broken : BrokenOff s f e last) :
      FeatureProbing s features (blocks ++ [last]) (.error e)

/-- A first feature that was probed to its end goes before the others. -/
theorem FeatureProbing.cons {s : Suite σ} {f : Feature} {features : List Feature}
    {block : List (Exchange σ)} {blocks : List (List (Exchange σ))} {holds : Bool}
    {result : Except Error (List Feature)} (probed : Probed s f block)
    (verdict : holds = true ↔ ∀ x ∈ block, ¬ x.Contradicts)
    (h : FeatureProbing s features blocks result) :
    FeatureProbing s (f :: features) (block :: blocks)
      (result.map fun others => if holds then f :: others else others) := by
  cases h with
  | @finished _ supported all upheld =>
    refine .finished (.cons probed all) fun g => ?_
    rw [upheld_cons, ← upheld g, ← verdict]
    cases holds <;> simp
  | failed order all broken =>
    exact .failed (by rw [order, List.cons_append]) (.cons probed all) broken

theorem probeFeatures_ends (s : Suite σ) (client : Client σ τ) {features : List Feature}
    (found : ∀ f ∈ features, ∃ indices, s.representatives f = .ok indices ∧
      ∀ index ∈ indices, ∃ t, s.test index = .ok t) (before : RunState τ) :
    ∃ blocks result after, Ends (probeFeatures s client features) before result after ∧
      Asked s client before blocks.flatten after ∧ FeatureProbing s features blocks result := by
  induction features generalizing before with
  | nil => exact ⟨[], .ok [], before, ends_pure _, asked_nil _, .finished .nil (by simp [Upheld])⟩
  | cons f rest ih =>
    obtain ⟨indices, represented, present⟩ := found f List.mem_cons_self
    have lookUp := ends_found represented before
    obtain ⟨block, result, middle, ends, asked, probing⟩ := probe_ends s client present before
    have onward : ∀ holds, result = .ok holds → Probed s f block →
        (holds = true ↔ ∀ x ∈ block, ¬ x.Contradicts) →
        ∃ blocks result after, Ends (probeFeatures s client (f :: rest)) before result after ∧
          Asked s client before blocks.flatten after ∧
          FeatureProbing s (f :: rest) blocks result := by
      intro holds done probed verdict
      obtain ⟨blocks, others, after, later, asked', course⟩ :=
        ih (fun g member => found g (List.mem_cons_of_mem _ member)) middle
      rw [done] at ends
      refine ⟨block :: blocks, _, after, lookUp.bind (ends.bind ?_), asked.append asked',
        course.cons probed verdict⟩
      cases others with
      | error e => exact later.bind_error
      | ok supported => exact later.bind (ends_pure _)
    cases probing with
    | upheld all =>
      exact onward true rfl ⟨indices, represented, .inl all⟩ (by simpa using all.not_contradicts)
    | refuted stops =>
      exact onward false rfl ⟨indices, represented, .inr stops⟩ (by simpa using stops.contradicts)
    | failed stops =>
      have order : f :: rest = [] ++ f :: rest := rfl
      have broken : BrokenOff s f _ block := ⟨indices, represented, stops⟩
      have probing : FeatureProbing s (f :: rest) ([] ++ [block]) _ := .failed order .nil broken
      exact ⟨[block], _, middle, lookUp.bind ends.bind_error, by simpa using asked, probing⟩

/-! ## Running the tests -/

/-- The filter lets the test pass, and the features that it requires are supported. -/
def Selects (filter : RunFilter) (s : Suite σ) (supported : Feature → Prop) (index : Nat) : Prop :=
  ¬ filter.LeavesOut index ∧ ∃ t, s.test index = .ok t ∧ ∀ f ∈ t.features, supported f

/-- The chosen indices are those that are selected, in their order. -/
def Picks (selects : Nat → Prop) (indices chosen : List Nat) : Prop :=
  chosen.Sublist indices ∧ ∀ index, index ∈ chosen ↔ index ∈ indices ∧ selects index

/-- The outcome of a test is that of an answer about it, if it was selected. -/
def Reported (selects : Nat → Prop) (xs : List (Exchange σ)) (index : Nat) (o : Outcome) : Prop :=
  (¬ selects index ∧ o = .skipped) ∨
  (selects index ∧ ∃ x ∈ xs, x.index = index ∧ ∃ accepted, x.answer = .ok accepted ∧
    o = .ofAnswer accepted)

/-- What comes of running tests one after the other: their outcomes, or an error. -/
inductive Testing (selects : Nat → Prop) (indices : List Nat) :
    List (Exchange σ) → Except Error (List Outcome) → Prop
  | finished {chosen : List Nat} {xs : List (Exchange σ)} {outcomes : List Outcome}
      (picked : Picks selects indices chosen) (all : Through Exchange.Answered chosen xs)
      (reported : List.Forall₂ (Reported selects xs) indices outcomes) :
      Testing selects indices xs (.ok outcomes)
  | failed {chosen : List Nat} {xs : List (Exchange σ)} {e : Error}
      (picked : Picks selects indices chosen)
      (stops : Until Exchange.Answered (Exchange.Fails e) chosen xs) :
      Testing selects indices xs (.error e)

section
variable {selects : Nat → Prop} {index : Nat} {indices chosen : List Nat}

theorem picks_nil : Picks selects [] [] := ⟨.refl _, by simp⟩

theorem Picks.take (h : Picks selects indices chosen) (selected : selects index) :
    Picks selects (index :: indices) (index :: chosen) := by
  refine ⟨h.1.cons_cons index, fun i => ?_⟩
  rw [List.mem_cons, List.mem_cons, h.2]
  by_cases same : i = index
  · simp [same, selected]
  · simp [same]

theorem Picks.leave (h : Picks selects indices chosen) (unselected : ¬ selects index) :
    Picks selects (index :: indices) chosen := by
  refine ⟨h.1.cons index, fun i => ?_⟩
  rw [List.mem_cons, h.2]
  by_cases same : i = index
  · simp [same, unselected]
  · simp [same]

theorem exists_picks (selects : Nat → Prop) (indices : List Nat) :
    ∃ chosen, Picks selects indices chosen := by
  induction indices with
  | nil => exact ⟨[], picks_nil⟩
  | cons index rest ih =>
    obtain ⟨chosen, picked⟩ := ih
    by_cases selected : selects index
    · exact ⟨index :: chosen, picked.take selected⟩
    · exact ⟨chosen, picked.leave selected⟩

theorem Reported.mono {xs ys : List (Exchange σ)} {o : Outcome}
    (h : Reported selects xs index o) (more : xs ⊆ ys) : Reported selects ys index o := by
  rcases h with skipped | ⟨selected, x, member, rest⟩
  · exact .inl skipped
  · exact .inr ⟨selected, x, more member, rest⟩

/-- A first test that was skipped goes before the others. -/
theorem Testing.skip {xs : List (Exchange σ)} {result : Except Error (List Outcome)}
    (unselected : ¬ selects index) (h : Testing selects indices xs result) :
    Testing selects (index :: indices) xs (result.map (Outcome.skipped :: ·)) := by
  cases h with
  | finished picked all reported =>
    exact .finished (picked.leave unselected) all (.cons (.inl ⟨unselected, rfl⟩) reported)
  | failed picked stops => exact .failed (picked.leave unselected) stops

/-- A first test that was run goes before the others. -/
theorem Testing.run {x : Exchange σ} {accepted : Bool} {xs : List (Exchange σ)}
    {result : Except Error (List Outcome)} (selected : selects x.index)
    (answer : x.answer = .ok accepted) (h : Testing selects indices xs result) :
    Testing selects (x.index :: indices) (x :: xs)
      (result.map (Outcome.ofAnswer accepted :: ·)) := by
  cases h with
  | finished picked all reported =>
    refine .finished (picked.take selected) (all.cons ⟨accepted, answer⟩) (.cons ?_ ?_)
    · exact .inr ⟨selected, x, List.mem_cons_self, rfl, accepted, answer, rfl⟩
    · exact reported.imp fun _ _ h => h.mono (List.subset_cons_self x xs)
  | failed picked stops => exact .failed (picked.take selected) (stops.cons ⟨accepted, answer⟩)

end

/-- One test is skipped, or asked about once. -/
theorem runTest_ends (filter : RunFilter) {s : Suite σ} (client : Client σ τ)
    (supported : List Feature) {index : Nat} (found : ∃ t, s.test index = .ok t)
    (before : RunState τ) :
    (¬ Selects filter s (· ∈ supported) index ∧ ∃ after,
      Ends (runTest filter s client supported index) before (.ok .skipped) after ∧
      Asked s client before [] after) ∨
    (Selects filter s (· ∈ supported) index ∧ ∃ (x : Exchange σ) (after : RunState τ),
      x.index = index ∧
      Ends (runTest filter s client supported index) before (x.answer.map Outcome.ofAnswer) after ∧
      Asked s client before [x] after) := by
  obtain ⟨t, found⟩ := found
  obtain ⟨first, told, asked⟩ := notify_ends s client (.testStarted index) before
  have lookUp := ends_found found first
  have selects : Selects filter s (· ∈ supported) index ↔
      (filter.includesTest index && t.features.all (supported.contains ·)) = true := by
    simp [Selects, found, RunFilter.includesTest_iff]
  by_cases selected : Selects filter s (· ∈ supported) index
  · obtain ⟨x, second, rfl, rfl, ends, asked'⟩ := ask_ends found client first
    refine .inr ⟨selected, ?_⟩
    cases answer : x.answer with
    | error e =>
      rw [answer] at ends
      refine ⟨x, second, rfl, ?_, asked.append asked'⟩
      rw [answer]
      refine told.bind (lookUp.bind ?_)
      simp only [selects.mp selected, ↓reduceIte]
      exact ends.bind_error
    | ok accepted =>
      rw [answer] at ends
      obtain ⟨after, told', asked''⟩ :=
        notify_ends s client (.testFinished x.index (.ofAnswer accepted)) second
      refine ⟨x, after, rfl, ?_, asked.append (asked'.append asked'')⟩
      rw [answer]
      refine told.bind (lookUp.bind ?_)
      simp only [selects.mp selected, ↓reduceIte]
      exact ends.bind (told'.bind (ends_pure _))
  · obtain ⟨after, told', asked'⟩ :=
      notify_ends s client (.testFinished index .skipped) first
    refine .inl ⟨selected, after, ?_, asked.append asked'⟩
    refine told.bind (lookUp.bind ?_)
    simp only [selects.not.mp selected]
    exact (ends_pure _).bind (told'.bind (ends_pure _))

theorem runTests_ends (filter : RunFilter) (s : Suite σ) (client : Client σ τ)
    (supported : List Feature) {indices : List Nat}
    (found : ∀ index ∈ indices, ∃ t, s.test index = .ok t) (before : RunState τ) :
    ∃ xs result after, Ends (runTests filter s client supported indices) before result after ∧
      Asked s client before xs after ∧
      Testing (Selects filter s (· ∈ supported)) indices xs result := by
  induction indices generalizing before with
  | nil => exact ⟨[], .ok [], before, ends_pure _, asked_nil _, .finished picks_nil .nil .nil⟩
  | cons index rest ih =>
    have others := fun middle => ih (fun i member => found i (List.mem_cons_of_mem _ member)) middle
    rcases runTest_ends filter client supported (found index List.mem_cons_self) before with
      ⟨unselected, middle, ends, asked⟩ | ⟨selected, x, middle, rfl, ends, asked⟩
    · obtain ⟨xs, result, after, later, asked', testing⟩ := others middle
      refine ⟨xs, _, after, ends.bind ?_, asked.append asked', testing.skip unselected⟩
      cases result with
      | error e => exact later.bind_error
      | ok outcomes => exact later.bind (ends_pure _)
    · cases answer : x.answer with
      | error e =>
        rw [answer] at ends
        obtain ⟨chosen, picked⟩ := exists_picks (Selects filter s (· ∈ supported)) rest
        exact ⟨[x], .error e, middle, ends.bind_error, asked,
          .failed (picked.take selected) (.here answer)⟩
      | ok accepted =>
        rw [answer] at ends
        obtain ⟨xs, result, after, later, asked', testing⟩ := others middle
        refine ⟨x :: xs, _, after, ends.bind ?_, asked.append asked', testing.run selected answer⟩
        cases result with
        | error e => exact later.bind_error
        | ok outcomes => exact later.bind (ends_pure _)

/-! ## Checking the sanity test -/

/-- What comes of the question about the sanity test. -/
inductive SanityCheck (s : Suite σ) (x : Exchange σ) : Except Error Unit → Prop
  | passed (agrees : x.Agrees) : SanityCheck s x (.ok ())
  | contradicted {accepted : Bool} (answer : x.answer = .ok accepted)
      (contradicts : x.Contradicts) :
      SanityCheck s x
        (.error (.sanityContradicted s.name x.test.expected (.ofAnswer accepted)))
  | failed {e : Error} (fails : x.Fails e) : SanityCheck s x (.error e)

theorem checkSanity_ends {s : Suite σ} (client : Client σ τ)
    (found : ∃ t, s.test s.sanityIndex = .ok t) (before : RunState τ) :
    ∃ (x : Exchange σ) (result : Except Error Unit) (after : RunState τ),
      x.index = s.sanityIndex ∧ Ends (checkSanity s client) before result after ∧
      Asked s client before [x] after ∧ SanityCheck s x result := by
  obtain ⟨t, found⟩ := found
  have lookUp := ends_found found before
  obtain ⟨x, after, index, rfl, ends, asked⟩ := ask_ends found client before
  cases answer : x.answer with
  | error e =>
    rw [answer] at ends
    exact ⟨x, _, after, index, lookUp.bind ends.bind_error, asked, .failed answer⟩
  | ok accepted =>
    rw [answer] at ends
    by_cases contradicts : x.Contradicts
    · refine ⟨x, _, after, index, lookUp.bind (ends.bind ?_), asked,
        .contradicted answer contradicts⟩
      simp only [(Exchange.contradicts_iff answer).mp contradicts, ↓reduceIte]
      exact ends_throw _
    · refine ⟨x, _, after, index, lookUp.bind (ends.bind ?_), asked,
        .passed ⟨⟨accepted, answer⟩, contradicts⟩⟩
      simp only [(Exchange.contradicts_iff answer).not.mp contradicts]
      exact ends_pure _

end Run

end ChainConformance
