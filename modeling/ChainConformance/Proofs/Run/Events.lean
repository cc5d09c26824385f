import ChainConformance.Proofs.Run.Course
import ChainConformance.Run.Logged

/-!
# What observers are told

`Tells` says what a part of a run tells its observers, depending on how the part ends. The questions
before the tests tell nothing; every test tells that it starts and, unless it ends the run, that it
finishes. Proved here, for every suite and every client, whether its look-ups succeed or not:

* `runTest_tells`, `runTests_tells`: one test, and tests in order;
* `suiteProbed_tells`: a whole run;
* `FailsAt.ends`: a run that is ended by the answer about a test;
* `observers_told`: the events of a run, with and without a log.
-/

namespace ChainConformance.Run

variable {σ τ α β : Type}

/-! ## Telling -/

/-- Whatever the part starts from, it adds events that go with its result. -/
def Tells (part : RunM τ α) (said : Except Error α → List Event → Prop) : Prop :=
  ∀ before result after, Ends part before result after →
    ∃ more, after.events.toList = before.events.toList ++ more ∧ said result more

/-- The part tells nothing, however it ends. -/
def Silent (part : RunM τ α) : Prop := Tells part fun _ more => more = []

section
variable {part : RunM τ α} {next : α → RunM τ β} {said : Except Error α → List Event → Prop}
  {whole : Except Error β → List Event → Prop}

theorem Tells.bind (first : Tells part said) (later : α → Except Error β → List Event → Prop)
    (second : ∀ value, Tells (next value) (later value))
    (broken : ∀ e more, said (.error e) more → whole (.error e) more)
    (through : ∀ value result xs ys, said (.ok value) xs → later value result ys →
      whole result (xs ++ ys)) : Tells (part >>= next) whole := by
  intro before result after ends
  obtain ⟨e, rfl, failed⟩ | ⟨value, middle, ended, ends⟩ := ends.of_bind
  · obtain ⟨more, events, told⟩ := first _ _ _ failed
    exact ⟨more, events, broken e more told⟩
  · obtain ⟨xs, events, told⟩ := first _ _ _ ended
    obtain ⟨ys, events', told'⟩ := second value _ _ _ ends
    refine ⟨xs ++ ys, ?_, through value result xs ys told told'⟩
    rw [events', events, List.append_assoc]

theorem tells_pure (value : α) :
    Tells (pure value : RunM τ α) fun result more => result = .ok value ∧ more = [] := by
  intro before result after ends
  obtain ⟨rfl, rfl⟩ := ends.of_pure
  exact ⟨[], (List.append_nil _).symm, rfl, rfl⟩

theorem tells_notify (e : Event) :
    Tells (notify e : RunM τ Unit) fun result more => result = .ok () ∧ more = [e] := by
  intro before result after ends
  obtain ⟨rfl, rfl⟩ := Prod.mk.inj ends
  exact ⟨[e], by simp, rfl, rfl⟩

theorem tells_notify_return (e : Event) (value : α) :
    Tells (do notify e; return value : RunM τ α) fun result more =>
      result = .ok value ∧ more = [e] := by
  refine (tells_notify e).bind _ (fun _ => tells_pure value) ?_ ?_
  · rintro _ _ ⟨⟨⟩, -⟩
  · rintro _ _ _ _ ⟨-, rfl⟩ ⟨rfl, rfl⟩
    exact ⟨rfl, rfl⟩

/-- What is said by a part that comes after a silent one, is all that is said. -/
theorem Silent.bind_tells (silent : Silent part) (second : ∀ value, Tells (next value) whole)
    (broken : ∀ e, whole (.error e) []) : Tells (part >>= next) whole := by
  refine Tells.bind silent (fun _ => whole) second ?_ ?_
  · rintro e _ rfl
    exact broken e
  · rintro _ _ _ _ rfl told
    exact told

/-! ## Silent parts -/

theorem Silent.bind (first : Silent part) (second : ∀ value, Silent (next value)) :
    Silent (part >>= next) :=
  first.bind_tells second fun _ => rfl

theorem silent_pure (value : α) : Silent (pure value : RunM τ α) := by
  intro before result after ends
  obtain ⟨-, rfl⟩ := ends.of_pure
  exact ⟨[], (List.append_nil _).symm, rfl⟩

theorem silent_throw (e : Error) : Silent (throw e : RunM τ α) := by
  intro before result after ends
  obtain ⟨-, rfl⟩ := (ends_throw before).unique ends
  exact ⟨[], (List.append_nil _).symm, rfl⟩

theorem silent_found (lookUp : Except Error α) : Silent (liftM lookUp : RunM τ α) := by
  intro before result after ends
  cases lookUp <;> obtain ⟨-, rfl⟩ := Prod.mk.inj ends <;>
    exact ⟨[], (List.append_nil _).symm, rfl⟩

end

section
variable (s : Suite σ) (client : Client σ τ)

theorem silent_ask (index : Nat) (t : TestCase σ) : Silent (ask client index t) := by
  intro before result after ends
  obtain ⟨-, rfl⟩ := (ends_ask rfl).unique ends
  exact ⟨[], (List.append_nil _).symm, rfl⟩

theorem silent_checkSanity : Silent (checkSanity s client) := by
  rw [checkSanity]
  refine (silent_found _).bind fun t => (silent_ask client _ t).bind fun outcome => ?_
  split
  · exact silent_throw _
  · exact silent_pure ()

theorem silent_probe (indices : List Nat) : Silent (probe s client indices) := by
  induction indices with
  | nil => exact silent_pure true
  | cons index rest ih =>
    rw [probe]
    refine (silent_found _).bind fun t => (silent_ask client index t).bind fun outcome => ?_
    split
    · exact silent_pure false
    · exact ih

theorem silent_probeFeatures (features : List Feature) :
    Silent (probeFeatures s client features) := by
  induction features with
  | nil => exact silent_pure []
  | cons f rest ih =>
    rw [probeFeatures]
    exact (silent_found _).bind fun indices => (silent_probe s client indices).bind fun holds =>
      ih.bind fun others => silent_pure _

theorem silent_probeFeaturesLogged (features : List Feature) :
    Silent (probeFeaturesLogged s client features) := by
  induction features with
  | nil => exact silent_pure []
  | cons f rest ih =>
    rw [probeFeaturesLogged]
    refine (silent_found _).bind fun indices => (silent_probe s client indices).bind fun holds => ?_
    have others : Silent (do
        let others ← probeFeaturesLogged s client rest
        return if holds then f :: others else others) := ih.bind fun others => silent_pure _
    dsimp only
    split
    · exact (silent_found _).bind fun _ => others
    · exact others

end

/-! ## Telling of tests -/

/-- What is told of tests with their outcomes. -/
def testEvents (indices : List Nat) (outcomes : List Outcome) : List Event :=
  (indices.zip outcomes).flatMap fun p => [.testStarted p.1, .testFinished p.1 p.2]

/-- What is told of a test that has started. -/
def FinishTold (index : Nat) : Except Error Outcome → List Event → Prop
  | .ok o, more => more = [.testFinished index o]
  | .error _, more => more = []

/-- What is told of a test that ends in the given way. -/
def TestTold (index : Nat) : Except Error Outcome → List Event → Prop
  | .ok o, more => more = [.testStarted index, .testFinished index o]
  | .error _, more => more = [.testStarted index]

/-- What is told of tests in order: of all, or of those up to the one that ends them. -/
def TestsTold (indices : List Nat) : Except Error (List Outcome) → List Event → Prop
  | .ok outcomes, more => outcomes.length = indices.length ∧ more = testEvents indices outcomes
  | .error _, more => ∃ front index rest outcomes, indices = front ++ index :: rest ∧
    outcomes.length = front.length ∧ more = testEvents front outcomes ++ [.testStarted index]

theorem testEvents_cons (index : Nat) (indices : List Nat) (o : Outcome) (outcomes : List Outcome) :
    testEvents (index :: indices) (o :: outcomes) =
      [.testStarted index, .testFinished index o] ++ testEvents indices outcomes := rfl

theorem runTest_tells (filter : RunFilter) (s : Suite σ) (client : Client σ τ)
    (supported : List Feature) (index : Nat) :
    Tells (runTest filter s client supported index) (TestTold index) := by
  have finished (outcome : Outcome) :
      Tells (do notify (.testFinished index outcome); return outcome : RunM τ Outcome)
        (FinishTold index) := by
    intro before result after ends
    obtain ⟨more, events, rfl, told⟩ := tells_notify_return _ outcome before result after ends
    exact ⟨more, events, told⟩
  rw [runTest]
  refine (tells_notify _).bind (fun _ => FinishTold index)
    (fun _ => (silent_found (s.test index)).bind_tells (fun t => ?_) fun _ => rfl) ?_ ?_
  · dsimp only
    split
    · exact (silent_ask client index t).bind_tells finished fun _ => rfl
    · exact (silent_pure Outcome.skipped).bind_tells finished fun _ => rfl
  · rintro e more ⟨⟨⟩, -⟩
  · rintro _ (e | o) _ _ ⟨-, rfl⟩ rfl <;> rfl

theorem runTests_tells (filter : RunFilter) (s : Suite σ) (client : Client σ τ)
    (supported : List Feature) (indices : List Nat) :
    Tells (runTests filter s client supported indices) (TestsTold indices) := by
  induction indices with
  | nil =>
    intro before result after ends
    obtain ⟨more, events, rfl, rfl⟩ := tells_pure [] before result after ends
    exact ⟨[], events, rfl, rfl⟩
  | cons index rest ih =>
    have later (o : Outcome) : Tells (do
        let others ← runTests filter s client supported rest
        return o :: others) fun result more => match result with
          | .ok outcomes => ∃ others, outcomes = o :: others ∧ TestsTold rest (.ok others) more
          | .error e => TestsTold rest (.error e) more := by
      refine ih.bind _ (fun others => tells_pure (o :: others)) (fun _ _ told => told) ?_
      rintro others _ more _ told ⟨rfl, rfl⟩
      exact ⟨others, rfl, by rwa [List.append_nil]⟩
    rw [runTests]
    refine (runTest_tells filter s client supported index).bind _ later ?_ ?_
    · rintro e _ rfl
      exact ⟨[], index, rest, [], rfl, rfl, rfl⟩
    · rintro o (e | outcomes) _ more rfl told
      · obtain ⟨front, i, back, outcomes, rfl, length, rfl⟩ := told
        exact ⟨index :: front, i, back, o :: outcomes, rfl, by simp [length], rfl⟩
      · obtain ⟨others, rfl, length, rfl⟩ := told
        exact ⟨by simp [length], rfl⟩

/-! ## Telling of a suite -/

/-- What is told of a suite whose tests have these outcomes. -/
def suiteEvents (s : Suite σ) (outcomes : List Outcome) : List Event :=
  .suiteStarted s.name s.count ::
    (testEvents (List.range s.count) outcomes ++ [.suiteFinished s.name])

/-- What is told of a suite after its start: of its tests and of its end, if there are results. A
run with an error tells of no test, or ends with the start of one. -/
def RestTold (s : Suite σ) : Except Error SuiteResults → List Event → Prop
  | .ok r, more => r.outcomes.length = s.count ∧
    more = testEvents (List.range s.count) r.outcomes ++ [.suiteFinished s.name]
  | .error _, more => more = [] ∨ ∃ index outcomes, index < s.count ∧ outcomes.length = index ∧
    more = testEvents (List.range index) outcomes ++ [.testStarted index]

/-- The numbers before one of the numbers below a count. -/
theorem eq_range_of_append {count index : Nat} {front rest : List Nat}
    (order : List.range count = front ++ index :: rest) :
    front = List.range index ∧ index < count := by
  have here : (List.range count)[front.length]? = some index := by simp [order]
  obtain ⟨below, same⟩ := List.getElem?_eq_some_iff.mp here
  rw [List.length_range] at below
  rw [List.getElem_range] at same
  have taken : (List.range count).take front.length = front := by simp [order]
  rw [List.take_range, Nat.min_eq_left (Nat.le_of_lt below), same] at taken
  exact ⟨taken.symm, same ▸ below⟩

theorem suiteProbed_tells {probing : RunM τ (List Feature)} (silent : Silent probing)
    (filter : RunFilter) (s : Suite σ) (client : Client σ τ) :
    Tells (suiteProbed probing filter s client) fun result more =>
      ∃ rest, more = .suiteStarted s.name s.count :: rest ∧ RestTold s result rest := by
  have rest (supported : List Feature) : Tells (do
      let outcomes ← runTests filter s client supported (List.range s.count)
      notify (.suiteFinished s.name)
      return {
        outcomes
        supported := s.features.filter (supported.contains ·)
        unsupported := s.features.filter (!supported.contains ·) }) (RestTold s) := by
    refine (runTests_tells filter s client supported _).bind _
      (fun outcomes => tells_notify_return _ _) ?_ ?_
    · rintro e _ ⟨front, index, rest, outcomes, order, length, rfl⟩
      obtain ⟨rfl, below⟩ := eq_range_of_append order
      exact .inr ⟨index, outcomes, below, by rw [length, List.length_range], rfl⟩
    · rintro outcomes _ _ _ ⟨length, rfl⟩ ⟨rfl, rfl⟩
      exact ⟨by rw [length, List.length_range], rfl⟩
  rw [suiteProbed]
  refine (tells_notify _).bind (fun _ => RestTold s) (fun _ =>
    (silent_checkSanity s client).bind_tells (fun _ => silent.bind_tells rest fun _ => .inl rfl)
      fun _ => .inl rfl) ?_ ?_
  · rintro e more ⟨⟨⟩, -⟩
  · rintro _ result _ ys ⟨-, rfl⟩ told
    exact ⟨ys, rfl, told⟩

/-! ## An error of the client -/

/-- The run comes to a test after those before it, the test is selected, and the client answers the
question about it with the error. -/
def FailsAt (probing : RunM τ (List Feature)) (filter : RunFilter) (s : Suite σ)
    (client : Client σ τ) (first : τ) (index : Nat) (e : Error) : Prop :=
  ∃ (sane probed here : RunState τ) (supported : List Feature) (outcomes : List Outcome)
    (t : TestCase σ),
    Ends (checkSanity s client) ⟨first, #[], #[.suiteStarted s.name s.count]⟩ (.ok ()) sane ∧
    Ends probing sane (.ok supported) probed ∧
    Ends (runTests filter s client supported (List.range index)) probed (.ok outcomes) here ∧
    index < s.count ∧ s.test index = .ok t ∧ filter.includesTest index = true ∧
    (∀ f ∈ t.features, f ∈ supported) ∧ (client index t here.client).1 = .error e

section
variable {filter : RunFilter} {s : Suite σ} {client : Client σ τ} {supported : List Feature}
  {before here after : RunState τ} {index : Nat} {e : Error}

theorem runTest_of_error {t : TestCase σ} (found : s.test index = .ok t)
    (included : filter.includesTest index = true) (met : ∀ f ∈ t.features, f ∈ supported)
    (fails : (client index t before.client).1 = .error e) :
    ∃ after, Ends (runTest filter s client supported index) before (.error e) after := by
  let started : RunState τ := { before with events := before.events.push (.testStarted index) }
  have told : Ends (notify (.testStarted index)) before (.ok ()) started := rfl
  let stopped : RunState τ :=
    { started with client := (client index t before.client).2, calls := before.calls.push index }
  have heard : client index t started.client = (.error e, (client index t before.client).2) :=
    Prod.ext fails rfl
  have asked : Ends (ask client index t) started (.error e) stopped := ends_ask heard
  have selected : (filter.includesTest index && t.features.all (supported.contains ·)) = true := by
    simpa [included] using met
  refine ⟨stopped, told.bind ((ends_found found started).bind ?_)⟩
  simp only [selected, ↓reduceIte]
  exact asked.bind_error

/-- A test that ends with an error ends the tests in which it stands. -/
theorem runTests_of_error {front rest : List Nat} {outcomes : List Outcome}
    (ran : Ends (runTests filter s client supported front) before (.ok outcomes) here)
    (failed : Ends (runTest filter s client supported index) here (.error e) after) :
    Ends (runTests filter s client supported (front ++ index :: rest)) before (.error e) after := by
  induction front generalizing before outcomes with
  | nil =>
    obtain ⟨-, rfl⟩ := ran.of_pure
    exact failed.bind_error
  | cons i front ih =>
    obtain ⟨_, ⟨⟩, -⟩ | ⟨o, middle, first, ran⟩ := ran.of_bind
    obtain ⟨_, ⟨⟩, -⟩ | ⟨others, last, later, ran⟩ := ran.of_bind
    obtain ⟨-, rfl⟩ := ran.of_pure
    exact first.bind (ih later).bind_error

theorem testEvents_append {indices more : List Nat} {outcomes others : List Outcome}
    (length : outcomes.length = indices.length) :
    testEvents (indices ++ more) (outcomes ++ others) =
      testEvents indices outcomes ++ testEvents more others := by
  rw [testEvents, List.zip_append length.symm, List.flatMap_append, testEvents, testEvents]

theorem suiteFinished_notMem_testEvents (name : String) (indices : List Nat)
    (outcomes : List Outcome) : .suiteFinished name ∉ testEvents indices outcomes := by
  simp [testEvents]

/-- The run ends with the error, right after the start of the test. -/
theorem FailsAt.ends {probing : RunM τ (List Feature)} {first : τ}
    (fails : FailsAt probing filter s client first index e) :
    ∃ final, Ends (suiteProbed probing filter s client) ⟨first, #[], #[]⟩ (.error e) final ∧
      final.events.toList.getLast? = some (.testStarted index) := by
  obtain ⟨sane, probed, here, supported, outcomes, t, sound, features, ran, below, found, included,
    met, answer⟩ := fails
  obtain ⟨final, failed⟩ := runTest_of_error found included met answer
  obtain ⟨front, rest, order⟩ := List.append_of_mem (List.mem_range.mpr below)
  obtain ⟨rfl, -⟩ := eq_range_of_append order
  have stopped : Ends (runTests filter s client supported (List.range index ++ index :: rest))
      probed (.error e) final := runTests_of_error ran failed
  rw [← order] at stopped
  have started : Ends (notify (.suiteStarted s.name s.count)) ⟨first, #[], #[]⟩ (.ok ())
      ⟨first, #[], #[.suiteStarted s.name s.count]⟩ := rfl
  obtain ⟨more, events, rfl⟩ := runTest_tells filter s client supported index _ _ _ failed
  refine ⟨final, started.bind (sound.bind (features.bind stopped.bind_error)), ?_⟩
  rw [events, List.getLast?_append, List.getLast?_singleton, Option.some_or]

end

/-! ## The events of a run -/

/-- What observers are told of a run whose features are probed in a given way. -/
structure Observed (probing : RunM τ (List Feature)) (filter : RunFilter) (s : Suite σ)
    (client : Client σ τ) (first : τ) (run : Except Error SuiteResults × RunState τ) : Prop where
  opened : run.2.events.toList.head? = some (.suiteStarted s.name s.count)
  /-- The questions before the tests tell nothing. -/
  sanity : Silent (checkSanity s client)
  probes : Silent probing
  /-- A run with results tells of the start and the finish of every test, with its outcome. -/
  finished : ∀ r, run.1 = .ok r → r.outcomes.length = s.count ∧
    run.2.events.toList = suiteEvents s r.outcomes
  /-- A run with an error tells the first part of that. -/
  broken : ∀ e, run.1 = .error e → ∃ outcomes : List Outcome, outcomes.length = s.count ∧
    run.2.events.toList <+:
      .suiteStarted s.name s.count :: testEvents (List.range s.count) outcomes
  closed : ∀ name, .suiteFinished name ∈ run.2.events.toList ↔
    name = s.name ∧ ∃ r, run.1 = .ok r
  /-- An error of the client about a test comes right after the start of the test. -/
  stopped : ∀ index e, FailsAt probing filter s client first index e →
    run.1 = .error e ∧ run.2.events.toList.getLast? = some (.testStarted index)

/-- Events up to the start of a test are the first part of the events of all tests. -/
theorem exists_prefix {count index : Nat} {outcomes : List Outcome} (below : index < count)
    (length : outcomes.length = index) : ∃ all : List Outcome, all.length = count ∧
      testEvents (List.range index) outcomes ++ [.testStarted index] <+:
        testEvents (List.range count) all := by
  obtain ⟨front, rest, order⟩ := List.append_of_mem (List.mem_range.mpr below)
  obtain ⟨rfl, -⟩ := eq_range_of_append order
  have total : count = index + (rest.length + 1) := by
    simpa using congrArg List.length order
  refine ⟨outcomes ++ .skipped :: List.replicate rest.length .skipped, by simp [length, total], ?_⟩
  rw [order, testEvents_append (by simp [length]), testEvents_cons]
  exact ⟨.testFinished index .skipped :: testEvents rest (List.replicate rest.length .skipped),
    by simp⟩

theorem observed_of_silent {probing : RunM τ (List Feature)} (silent : Silent probing)
    (filter : RunFilter) (s : Suite σ) (client : Client σ τ) (first : τ) :
    Observed probing filter s client first
      (start (suiteProbed probing filter s client) first) := by
  rcases run : start (suiteProbed probing filter s client) first with ⟨result, final⟩
  obtain ⟨_, events, rest, rfl, told⟩ := suiteProbed_tells silent filter s client _ _ _ run
  rw [Array.toList_empty, List.nil_append] at events
  refine ⟨by rw [events]; rfl, silent_checkSanity s client, silent, ?_, ?_, ?_, ?_⟩
  · rintro r rfl
    obtain ⟨length, rfl⟩ := told
    exact ⟨length, events⟩
  · rintro e rfl
    obtain rfl | ⟨index, outcomes, below, length, rfl⟩ := told
    · exact ⟨List.replicate s.count .skipped, List.length_replicate, by simp [events]⟩
    · obtain ⟨all, total, early⟩ := exists_prefix below length
      exact ⟨all, total, by simpa [events] using early⟩
  · intro name
    rw [events]
    cases result with
    | ok r =>
      obtain ⟨-, rfl⟩ := told
      simp [suiteFinished_notMem_testEvents]
    | error e =>
      obtain rfl | ⟨index, outcomes, -, -, rfl⟩ := told <;>
        simp [suiteFinished_notMem_testEvents]
  · intro index e fails
    obtain ⟨final', ends, last⟩ := fails.ends
    obtain ⟨rfl, rfl⟩ := ends.unique run
    exact ⟨rfl, last⟩

/-- Observers are told that the suite starts, nothing about the sanity test and the representatives
of the features, and then of every test that it starts and, directly after that, that it finishes
with the outcome that the results have for it; at last they are told that the suite finishes. A run
that ends with an error tells the first part of this: never that the suite finishes, and, if the
client fails on a test, nothing after the start of that test. With a log nothing is different. -/
theorem observers_told (filter : RunFilter) (s : Suite σ) (client : Client σ τ) (first : τ) :
    Observed (probeFeatures s client s.features) filter s client first
      (start (suite filter s client) first) ∧
    Observed (probeFeaturesLogged s client s.features) filter s client first
      (start (suiteLogged filter s client) first) := by
  rw [suite_eq_suiteProbed, suiteLogged]
  exact ⟨observed_of_silent (silent_probeFeatures s client _) filter s client first,
    observed_of_silent (silent_probeFeaturesLogged s client _) filter s client first⟩

/-- A client that answers right up to the seventh question, at which it fails. -/
def breaking : Client Unit Nat := fun _ t shown =>
  (if shown = 6 then .error .noTestSelected else .ok t.expected.prefersAccept, shown + 1)

/-- `breaking` fails on the third test of the sample, after two that finish. -/
theorem told_of_breaking :
    FailsAt (probeFeatures sampleSuite breaking [1, 2]) sampleFilter sampleSuite breaking 0 2
      .noTestSelected ∧
    (start (suite sampleFilter sampleSuite breaking) 0).1 = .error .noTestSelected ∧
    (start (suite sampleFilter sampleSuite breaking) 0).2.events.toList =
      [.suiteStarted "sample" 6, .testStarted 0, .testFinished 0 .accepted, .testStarted 1,
        .testFinished 1 .skipped, .testStarted 2] ∧
    .suiteFinished "sample" ∉
      (start (suite sampleFilter sampleSuite breaking) 0).2.events.toList := by
  have fails : FailsAt (probeFeatures sampleSuite breaking [1, 2]) sampleFilter sampleSuite
      breaking 0 2 .noTestSelected :=
    ⟨_, _, _, [1, 2], [.accepted, .skipped], _, rfl, rfl, rfl, by decide, rfl, by decide,
      fun f required => List.mem_cons.mpr (.inl (List.mem_singleton.mp required)), rfl⟩
  have observed := (observers_told sampleFilter sampleSuite breaking 0).1
  obtain ⟨ended, -⟩ := observed.stopped 2 .noTestSelected fails
  refine ⟨fails, ended, by decide, fun member => ?_⟩
  obtain ⟨-, r, done⟩ := (observed.closed _).mp member
  rw [ended] at done
  cases done

end ChainConformance.Run
