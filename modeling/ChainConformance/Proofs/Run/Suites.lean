import ChainConformance.Proofs.Outcome
import ChainConformance.Proofs.Run.Simulation
import ChainConformance.Proofs.SortedMap
import ChainConformance.Server.Selection

/-!
# Runs of all suites

* `suites_eq_filter`: a run goes through the suites that the filter admits, whatever comes of it;
* `keys_of_all`: a run without an error has the results of the suites that the filter admits;
* `last_suite_of_all`: a run with an error ends in the suite that has it, after suites without one,
  and asks about no test of the suites behind it.

The tests that a client is asked about are noted by `noted`; they are tests of the suites that are
run (`asked_of_suites`).
-/

namespace ChainConformance.Run

variable {τ α : Type}

/-! ## Suite by suite -/

/-- A suite is run in the same way whichever suite the filter names. -/
theorem suite_eq_of_tests {σ : Type} (filter : RunFilter) (s : Suite σ) (client : Client σ τ) :
    suite filter s client = suite ⟨none, filter.tests⟩ s client := by
  have each (supported : List Feature) (indices : List Nat) :
      runTests filter s client supported indices =
        runTests ⟨none, filter.tests⟩ s client supported indices := by
    induction indices with
    | nil => rfl
    | cons index rest ih =>
      rw [runTests, runTests, ih]
      rfl
  simp only [suite, each]

/-- A run under a filter goes through the suites that the filter admits, and through no other. -/
theorem suites_eq_filter (filter : RunFilter) (client : Suite AnyScenario → Client AnyScenario τ)
    (list : List (Suite AnyScenario)) : suites filter client list =
      suites ⟨none, filter.tests⟩ client (list.filter fun s => filter.includesSuite s.name) := by
  induction list with
  | nil => rfl
  | cons s rest ih =>
    rw [suites, List.filter_cons]
    split
    · rw [suites, ih, suite_eq_of_tests]
      rfl
    · exact ih
section
variable {filter : RunFilter} {client : Suite AnyScenario → Client AnyScenario τ}
  {list : List (Suite AnyScenario)} {before after : RunState τ}

theorem names_of_suites {entries : List (String × SuiteResults)}
    (ends : Ends (suites filter client list) before (.ok entries) after) :
    entries.map (·.1) = (list.map (·.name)).filter filter.includesSuite := by
  induction list generalizing entries before after with
  | nil =>
    obtain ⟨same, -⟩ := ends.of_pure
    cases same
    rfl
  | cons s rest ih =>
    rw [suites] at ends
    rw [List.map_cons, List.filter_cons]
    split at ends
    · next admitted =>
      obtain ⟨_, bad, -⟩ | ⟨results, middle, -, ends⟩ := ends.of_bind
      · cases bad
      obtain ⟨_, bad, -⟩ | ⟨others, last, later, ends⟩ := ends.of_bind
      · cases bad
      obtain ⟨same, -⟩ := ends.of_pure
      cases same
      rw [if_pos admitted, List.map_cons, ih later]
    · next left =>
      rw [if_neg left, ih ends]

/-- The suite in which the run ends, after suites that ended without an error. -/
theorem suites_error {e : Error} (ends : Ends (suites filter client list) before (.error e) after) :
    ∃ front s rest done middle, list = front ++ s :: rest ∧ filter.includesSuite s.name = true ∧
      Ends (suites filter client front) before (.ok done) middle ∧
      Ends (suite filter s (client s)) middle (.error e) after := by
  induction list generalizing before with
  | nil =>
    obtain ⟨bad, -⟩ := ends.of_pure
    cases bad
  | cons s rest ih =>
    rw [suites] at ends
    split at ends
    · next admitted =>
      obtain ⟨_, ⟨⟩, here⟩ | ⟨results, middle, here, ends⟩ := ends.of_bind
      · exact ⟨[], s, rest, [], before, rfl, admitted, ends_pure _, here⟩
      obtain ⟨_, ⟨⟩, later⟩ | ⟨others, last, -, ends⟩ := ends.of_bind
      · obtain ⟨front, s', rest', done, middle', rfl, admitted', ran, failed⟩ := ih later
        refine ⟨s :: front, s', rest', (s.name, results) :: done, middle', rfl, admitted', ?_,
          failed⟩
        rw [suites, if_pos admitted]
        exact here.bind (ran.bind (ends_pure _))
      · obtain ⟨bad, -⟩ := ends.of_pure
        cases bad
    · next left =>
      obtain ⟨front, s', rest', done, middle, rfl, admitted, ran, failed⟩ := ih ends
      refine ⟨s :: front, s', rest', done, middle, rfl, admitted, ?_, failed⟩
      rw [suites, if_neg left]
      exact ran

end

/-! ## The tests that were asked about -/

/-- The client, noting which tests it is asked about. -/
def noted (client : Suite AnyScenario → Client AnyScenario τ) (s : Suite AnyScenario) :
    Client AnyScenario (List SelectedTest × τ) := fun index t (asked, state) =>
  let (answer, state) := client s index t state
  (answer, asked ++ [⟨s.name, index⟩], state)

/-- The notes change nothing. -/
theorem noted_alike (client : Suite AnyScenario → Client AnyScenario τ) (s : Suite AnyScenario) :
    Alike (fun a b => a.2 = b) s (noted client s) (client s) := by
  rintro index t - ⟨asked, state⟩ _ rfl
  exact ⟨_, _, _, rfl, rfl, rfl⟩

/-- Both views are of one state, whose notes have grown by tests of the suites. -/
def Grown (names : List String) (first : List SelectedTest) (a b : List SelectedTest × τ) : Prop :=
  a = b ∧ ∃ more, a.1 = first ++ more ∧ ∀ x ∈ more, x.suite ∈ names

theorem grown_alike {names : List String} (client : Suite AnyScenario → Client AnyScenario τ)
    (first : List SelectedTest) {s : Suite AnyScenario} (named : s.name ∈ names) :
    Alike (Grown names first) s (noted client s) (noted client s) := by
  rintro index t - ⟨_, state⟩ _ ⟨rfl, more, rfl, tests⟩
  refine ⟨_, _, _, rfl, rfl, rfl, more ++ [⟨s.name, index⟩], List.append_assoc .., ?_⟩
  intro x member
  rcases List.mem_append.mp member with member | member
  · exact tests x member
  · rw [List.mem_singleton.mp member]
    exact named

theorem grown_of_agree {names : List String} {part : RunM (List SelectedTest × τ) α}
    {before after : RunState (List SelectedTest × τ)} {result : Except Error α}
    (agree : Agree (Grown names before.client.1) part part) (ends : Ends part before result after) :
    ∃ more, after.client.1 = before.client.1 ++ more ∧ ∀ x ∈ more, x.suite ∈ names := by
  have step : InStep (Grown names before.client.1) before before :=
    ⟨⟨rfl, [], (List.append_nil _).symm, by simp⟩, rfl, rfl⟩
  obtain ⟨_, -, step⟩ := agree.transport step ends
  exact step.client.2

theorem asked_of_suites {filter : RunFilter} {client : Suite AnyScenario → Client AnyScenario τ}
    {list : List (Suite AnyScenario)} {before after : RunState (List SelectedTest × τ)}
    {result : Except Error (List (String × SuiteResults))}
    (ends : Ends (suites filter (noted client) list) before result after) :
    ∃ more, after.client.1 = before.client.1 ++ more ∧ ∀ x ∈ more, x.suite ∈ list.map (·.name) :=
  grown_of_agree (suites_agree fun _ member _ =>
    grown_alike client _ (List.mem_map_of_mem member)) ends

theorem asked_of_suite {filter : RunFilter} {client : Suite AnyScenario → Client AnyScenario τ}
    {s : Suite AnyScenario} {before after : RunState (List SelectedTest × τ)}
    {result : Except Error SuiteResults}
    (ends : Ends (suite filter s (noted client s)) before result after) :
    ∃ more, after.client.1 = before.client.1 ++ more ∧ ∀ x ∈ more, x.suite ∈ [s.name] :=
  grown_of_agree (suite_agree (grown_alike client _ (List.mem_singleton_self _)) filter) ends

/-! ## Runs of a collection -/

section
variable {filter : RunFilter} {c : Collection} {client : Suite AnyScenario → Client AnyScenario τ}
  {first : τ}

theorem suites_of_all {result : Except Error (SortedMap String SuiteResults)} {last : RunState τ}
    (run : start (all filter c client) first = (result, last)) :
    ∃ ran, Ends (suites filter client c.suites) ⟨first, #[], #[]⟩ ran last ∧
      result = ran.map SortedMap.ofList := by
  have ends : Ends (suites filter client c.suites >>= fun entries => pure (.ofList entries))
      ⟨first, #[], #[]⟩ result last := run
  obtain ⟨e, rfl, failed⟩ | ⟨entries, middle, ran, ends⟩ := ends.of_bind
  · exact ⟨.error e, failed, rfl⟩
  · obtain ⟨rfl, rfl⟩ := ends.of_pure
    exact ⟨.ok entries, ran, rfl⟩

/-- A run without an error has the results of just the suites that the filter admits. -/
theorem keys_of_all {map : SortedMap String SuiteResults} {last : RunState τ}
    (run : start (all filter c client) first = (.ok map, last)) (name : String) :
    (map.get? name).isSome = true ↔ name ∈ c.names ∧ filter.includesSuite name = true := by
  obtain ⟨ran, ends, result⟩ := suites_of_all run
  obtain ⟨entries, rfl, rfl⟩ := map_eq_ok_iff.mp result.symm
  rw [SortedMap.isSome_get?_ofList, names_of_suites ends, List.mem_filter]
  rfl

/-- A run with an error ends in the suite that has it: the suites before it ran without one, and
the client is asked about no test of a suite behind it. -/
theorem last_suite_of_all (distinct : c.names.Nodup) {e : Error} {asked : List SelectedTest}
    {last : τ} {calls : Array Nat} {events : Array Event}
    (run : start (all filter c (noted client)) ([], first) =
      (.error e, ⟨(asked, last), calls, events⟩)) :
    ∃ front s rest done middle, c.suites = front ++ s :: rest ∧
      filter.includesSuite s.name = true ∧
      Ends (suites filter client front) ⟨first, #[], #[]⟩ (.ok done) middle ∧
      Ends (suite filter s (client s)) middle (.error e) ⟨last, calls, events⟩ ∧
      ∀ x ∈ asked, x.suite ∉ rest.map (·.name) := by
  obtain ⟨_ | _, ends, ⟨⟩⟩ := suites_of_all run
  obtain ⟨front, s, rest, done, middle, list, admitted, ran, failed⟩ := suites_error ends
  -- the same without the notes
  have step : InStep (fun (a : List SelectedTest × τ) b => a.2 = b)
      ⟨([], first), #[], #[]⟩ ⟨first, #[], #[]⟩ := ⟨rfl, rfl, rfl⟩
  obtain ⟨middle', ran', step⟩ :=
    (suites_agree fun s _ _ => noted_alike client s).transport step ran
  obtain ⟨⟨_, _, _⟩, failed', rfl, rfl, rfl⟩ :=
    (suite_agree (noted_alike client s) filter).transport step failed
  refine ⟨front, s, rest, done, middle', list, admitted, ran', failed', fun x member later => ?_⟩
  -- what was asked, belongs to the suites up to the last
  obtain ⟨before, e₁, early⟩ := asked_of_suites ran
  obtain ⟨more, e₂, late⟩ := asked_of_suite failed
  have here : x.suite ∈ (front ++ [s]).map (·.name) := by
    have parts : x ∈ [] ++ before ++ more := by
      rw [← e₁, ← e₂]
      exact member
    rw [List.map_append]
    rcases List.mem_append.mp parts with inFront | inLast
    · exact List.mem_append_left _ (early x inFront)
    · exact List.mem_append_right _ (late x inLast)
  have apart : ((front ++ [s]).map (·.name) ++ rest.map (·.name)).Nodup := by
    rw [← List.map_append, List.append_assoc, List.singleton_append, ← list]
    exact distinct
  exact (List.nodup_append.mp apart).2.2 _ here _ later rfl

end

end ChainConformance.Run
