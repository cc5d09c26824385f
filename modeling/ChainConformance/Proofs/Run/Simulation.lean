import ChainConformance.Proofs.Run.Transcript
import ChainConformance.Run.Suites

/-!
# Runs in step

Two runs of the same suites keep in step if their clients do: if, from related states, both answer
each question in the same way and are left in related states (`Alike`). `Agree` says so of a part
of a run: its result, the questions and what observers are told are the same on both sides. It is
proved of every part in the order in which they are put together, up to

* `suite_agree`: the run of one suite;
* `all_agree`: the run of a collection.

A relation that only compares two views of one state makes this a way to read an invariant off a
single run.
-/

namespace ChainConformance.Run

variable {σ τ τ' α β : Type} {R : τ → τ' → Prop}

/-- At this point the clients are related, and the same has been asked and told in both runs. -/
structure InStep (R : τ → τ' → Prop) (a : RunState τ) (b : RunState τ') : Prop where
  client : R a.client b.client
  calls : a.calls = b.calls
  events : a.events = b.events

/-- Started in step, both parts end in step, and with the same result. -/
def Agree (R : τ → τ' → Prop) (part : RunM τ α) (part' : RunM τ' α) : Prop :=
  ∀ before before', InStep R before before' → ∃ result after after',
    Ends part before result after ∧ Ends part' before' result after' ∧ InStep R after after'

/-- On every test of the suite the clients give the same answer, and stay related. -/
def Alike (R : τ → τ' → Prop) (s : Suite σ) (client : Client σ τ) (client' : Client σ τ') : Prop :=
  ∀ index t, s.test index = .ok t → ∀ a b, R a b → ∃ answer a' b',
    client index t a = (answer, a') ∧ client' index t b = (answer, b') ∧ R a' b'

/-! ## Putting parts together -/

section
variable {part : RunM τ α} {part' : RunM τ' α} {next : α → RunM τ β} {next' : α → RunM τ' β}

theorem agree_pure (value : α) : Agree R (pure value) (pure value) :=
  fun before before' step => ⟨.ok value, before, before', ends_pure _, ends_pure _, step⟩

theorem agree_throw (e : Error) : Agree R (throw e : RunM τ α) (throw e) :=
  fun before before' step => ⟨.error e, before, before', ends_throw _, ends_throw _, step⟩

theorem Agree.bind (first : Agree R part part')
    (later : ∀ value, Agree R (next value) (next' value)) :
    Agree R (part >>= next) (part' >>= next') := by
  intro before before' step
  obtain ⟨result, middle, middle', ends, ends', step⟩ := first before before' step
  cases result with
  | error e => exact ⟨.error e, middle, middle', ends.bind_error, ends'.bind_error, step⟩
  | ok value =>
    obtain ⟨result, after, after', ends₂, ends₂', step⟩ := later value middle middle' step
    exact ⟨result, after, after', ends.bind ends₂, ends'.bind ends₂', step⟩

/-- What follows a look-up agrees if it does on the value that is found. -/
theorem Agree.found {lookUp : Except Error α}
    (later : ∀ value, lookUp = .ok value → Agree R (next value) (next' value)) :
    Agree R (liftM lookUp >>= next) (liftM lookUp >>= next') := by
  intro before before' step
  cases found : lookUp with
  | error e =>
    have fails (state : RunState τ) : Ends (liftM (Except.error e : Except Error α)) state
        (.error e : Except Error α) state := rfl
    have fails' (state : RunState τ') : Ends (liftM (Except.error e : Except Error α)) state
        (.error e : Except Error α) state := rfl
    exact ⟨.error e, before, before', (fails _).bind_error, (fails' _).bind_error, step⟩
  | ok value =>
    obtain ⟨result, after, after', ends, ends', step⟩ := later value found before before' step
    exact ⟨result, after, after', (ends_found rfl _).bind ends, (ends_found rfl _).bind ends', step⟩

theorem agree_notify (e : Event) : Agree R (notify e) (notify e) := by
  intro before before' step
  refine ⟨.ok (), _, _, rfl, rfl, step.client, step.calls, ?_⟩
  exact congrArg (·.push e) step.events

end

/-! ## The parts of a run -/

section
variable {s : Suite σ} {client : Client σ τ} {client' : Client σ τ'} {index : Nat} {t : TestCase σ}
  (alike : Alike R s client client')
include alike

theorem ask_agree (found : s.test index = .ok t) :
    Agree R (ask client index t) (ask client' index t) := by
  intro before before' step
  obtain ⟨answer, a, b, heard, heard', related⟩ := alike index t found _ _ step.client
  refine ⟨answer.map Outcome.ofAnswer, _, _, ends_ask heard, ends_ask heard', related, ?_,
    step.events⟩
  rw [step.calls]

theorem probe_agree (indices : List Nat) :
    Agree R (probe s client indices) (probe s client' indices) := by
  induction indices with
  | nil => exact agree_pure true
  | cons index rest ih =>
    rw [probe, probe]
    refine .found fun t found => (ask_agree alike found).bind fun outcome => ?_
    split
    · exact agree_pure false
    · exact ih

theorem probeFeatures_agree (features : List Feature) :
    Agree R (probeFeatures s client features) (probeFeatures s client' features) := by
  induction features with
  | nil => exact agree_pure []
  | cons f rest ih =>
    rw [probeFeatures, probeFeatures]
    exact .found fun indices _ => (probe_agree alike indices).bind fun holds =>
      ih.bind fun others => agree_pure _

theorem runTest_agree (filter : RunFilter) (supported : List Feature) (index : Nat) :
    Agree R (runTest filter s client supported index)
      (runTest filter s client' supported index) := by
  rw [runTest, runTest]
  refine (agree_notify _).bind fun _ => .found fun t found => ?_
  have finished (outcome : Outcome) :
      Agree R (do notify (.testFinished index outcome); return outcome)
        (do notify (.testFinished index outcome); return outcome) :=
    (agree_notify _).bind fun _ => agree_pure outcome
  dsimp only
  split
  · exact (ask_agree alike found).bind finished
  · exact (agree_pure Outcome.skipped).bind finished

theorem runTests_agree (filter : RunFilter) (supported : List Feature) (indices : List Nat) :
    Agree R (runTests filter s client supported indices)
      (runTests filter s client' supported indices) := by
  induction indices with
  | nil => exact agree_pure []
  | cons index rest ih =>
    rw [runTests, runTests]
    exact (runTest_agree alike filter supported index).bind fun outcome =>
      ih.bind fun others => agree_pure _

theorem checkSanity_agree : Agree R (checkSanity s client) (checkSanity s client') := by
  rw [checkSanity, checkSanity]
  refine .found fun t found => (ask_agree alike found).bind fun outcome => ?_
  split
  · exact agree_throw _
  · exact agree_pure ()

theorem suite_agree (filter : RunFilter) :
    Agree R (suite filter s client) (suite filter s client') := by
  rw [suite, suite]
  exact (agree_notify _).bind fun _ => (checkSanity_agree alike).bind fun _ =>
    (probeFeatures_agree alike s.features).bind fun supported =>
    (runTests_agree alike filter supported _).bind fun outcomes =>
    (agree_notify _).bind fun _ => agree_pure _

end

/-! ## Runs of all suites -/

section
variable {client : Suite AnyScenario → Client AnyScenario τ}
  {client' : Suite AnyScenario → Client AnyScenario τ'} {filter : RunFilter}

theorem suites_agree {list : List (Suite AnyScenario)}
    (alike : ∀ s ∈ list, filter.includesSuite s.name = true → Alike R s (client s) (client' s)) :
    Agree R (suites filter client list) (suites filter client' list) := by
  induction list with
  | nil => exact agree_pure []
  | cons s rest ih =>
    obtain ⟨here, later⟩ := List.forall_mem_cons.mp alike
    rw [suites, suites]
    split
    · next admitted =>
      exact (suite_agree (here admitted) filter).bind fun results =>
        (ih later).bind fun others => agree_pure _
    · exact ih later

theorem all_agree {c : Collection} (alike : ∀ s ∈ c.suites, filter.includesSuite s.name = true →
      Alike R s (client s) (client' s)) :
    Agree R (all filter c client) (all filter c client') :=
  (suites_agree alike).bind fun _ => agree_pure _

end

/-! ## From one run to the other -/

theorem Agree.transport {part : RunM τ α} {part' : RunM τ' α} (agree : Agree R part part')
    {before after : RunState τ} {before' : RunState τ'} (step : InStep R before before')
    {result : Except Error α} (ends : Ends part before result after) :
    ∃ after', Ends part' before' result after' ∧ InStep R after after' := by
  obtain ⟨_, _, after', ends₂, ends', step⟩ := agree before before' step
  obtain ⟨rfl, rfl⟩ := ends₂.unique ends
  exact ⟨after', ends', step⟩

theorem Agree.start {part : RunM τ α} {part' : RunM τ' α} (agree : Agree R part part')
    {a last : τ} {b : τ'} (related : R a b) {result : Except Error α} {calls : Array Nat}
    {events : Array Event} (run : start part a = (result, ⟨last, calls, events⟩)) :
    ∃ last', start part' b = (result, ⟨last', calls, events⟩) ∧ R last last' := by
  have step : InStep R ⟨a, #[], #[]⟩ ⟨b, #[], #[]⟩ := ⟨related, rfl, rfl⟩
  obtain ⟨⟨last', _, _⟩, ends, related, rfl, rfl⟩ := agree.transport step run
  exact ⟨last', ends, related⟩

end ChainConformance.Run
