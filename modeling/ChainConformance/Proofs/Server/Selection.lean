import ChainConformance.Proofs.Server.Event

/-!
# The test that is selected

`Server.run` and `Server.answers` take a sequence of events. Proved here, for a collection whose
suites have their tests by index:

* `run_start`: after a run, the test of the last successful selection is selected;
* `presents_run`: a handshake gets the chain of that test, or is told that there is none;
* `tracks_run`: all of this for every history.
-/

namespace ChainConformance.Server

/-! ## Histories -/

/-- The server after a sequence of events. -/
def run (s : Server) (events : List Event) : Server :=
  events.foldl (fun s e => (s.step e).1) s

/-- The events of a sequence with their answers. -/
def answers (s : Server) : List Event → List (Event × Answer)
  | [] => []
  | e :: rest => (e, (s.step e).2) :: (s.step e).1.answers rest

/-- The test that an event with its answer has selected. -/
def chosen? (p : Event × Answer) : Option SelectedTest :=
  if p.1.isSelection && p.2.isSuccess then p.1.test? else none

/-- The test that the last successful selection named. -/
def lastSelected (history : List (Event × Answer)) : Option SelectedTest :=
  (history.filterMap chosen?).getLast?

theorem lastSelected_cons (p : Event × Answer) (history : List (Event × Answer)) :
    lastSelected (p :: history) = (lastSelected history).or (chosen? p) := by
  rw [lastSelected, List.filterMap_cons]
  cases chosen? p with
  | none => exact Option.or_none.symm
  | some t =>
    rw [List.getLast?_cons, ← lastSelected]
    cases lastSelected history <;> rfl

theorem chosen?_eq_some_iff {p : Event × Answer} {t : SelectedTest} :
    chosen? p = some t ↔
      (p.1.isSelection && p.2.isSuccess) = true ∧ p.1.test? = some t := by
  rw [chosen?, Option.ite_none_right_eq_some]

theorem exists_of_lastSelected {history : List (Event × Answer)} {t : SelectedTest}
    (last : lastSelected history = some t) : ∃ p ∈ history, chosen? p = some t :=
  List.mem_filterMap.mp (List.mem_of_getLast? last)

/-! ## Runs -/

section

variable {s : Server} (indexed : ∀ x ∈ s.collection.suites, x.Indexed)
include indexed

theorem chosen?_step (e : Event) : chosen? (e, (s.step e).2) = e.selection s.collection := by
  have success := isSuccess_step indexed e
  rw [chosen?, success]
  cases chosen : e.selection s.collection with
  | none => rfl
  | some t => exact (Event.selection_eq_some_iff.mp chosen).1

/-- After a run, the test of the last successful selection is selected, or else the one before. -/
theorem run_eq (events : List Event) :
    s.run events = { s with selected := (lastSelected (s.answers events)).or s.selected } := by
  induction events generalizing s with
  | nil => rfl
  | cons e rest ih =>
    have stepped := step_server indexed e
    have kept : (s.step e).1.collection = s.collection := by rw [stepped]
    rw [run, List.foldl_cons, ← run, ih (kept ▸ indexed), answers, lastSelected_cons,
      chosen?_step indexed, stepped, Option.or_assoc]

theorem chosen?_of_mem {events : List Event} {p : Event × Answer} (member : p ∈ s.answers events) :
    chosen? p = p.1.selection s.collection := by
  induction events generalizing s with
  | nil => cases member
  | cons e rest ih =>
    have kept : (s.step e).1.collection = s.collection := by rw [step_server indexed e]
    rcases List.mem_cons.mp member with rfl | later
    · exact chosen?_step indexed e
    · rw [ih (kept ▸ indexed) later, kept]

end

theorem run_append (s : Server) (events later : List Event) :
    s.run (events ++ later) = (s.run events).run later :=
  List.foldl_append

theorem answers_append (s : Server) (events later : List Event) :
    s.answers (events ++ later) = s.answers events ++ (s.run events).answers later := by
  induction events generalizing s with
  | nil => rfl
  | cons e rest ih => exact congrArg _ (ih _)

theorem events_answers (s : Server) (events : List Event) :
    (s.answers events).map (·.1) = events := by
  induction events generalizing s with
  | nil => rfl
  | cons e rest ih => exact congrArg _ (ih _)

/-- Each answer is the one of the server after the events before it. -/
theorem answer_of_split {s : Server} {events : List Event} {before after : List (Event × Answer)}
    {p : Event × Answer} (split : s.answers events = before ++ p :: after) :
    before = s.answers (before.map (·.1)) ∧
      p.2 = ((s.run (before.map (·.1))).step p.1).2 := by
  have all : events = before.map (·.1) ++ p.1 :: after.map (·.1) := by
    rw [← events_answers s events, split, List.map_append, List.map_cons]
  rw [all, answers_append] at split
  -- There is one answer for each event, so both ways to cut the list cut it at the same place.
  have length : (s.answers (before.map (·.1))).length = before.length := by
    rw [← List.length_map, events_answers, List.length_map]
  obtain ⟨first, rest⟩ := List.append_inj split length
  have here := (List.cons.inj rest).1
  exact ⟨first.symm, (congrArg Prod.snd here).symm⟩

/-! ## Handshakes -/

/-- What a handshake gets when the given test is selected, or none. -/
structure Presents (c : Collection) (d : X509.Draws) (selected : Option SelectedTest)
    (chain : Except Error X509.Chain) : Prop where
  set : ∀ t, selected = some t →
    ∃ test, c.test t.suite t.index = .ok test ∧ chain = c.chain d test
  unset : chain = .error .noTestSelected ↔ selected = none
  /-- No other error of a look-up can occur. -/
  found : ∀ e, chain = .error e → e.ofLookup = true → e = .noTestSelected

/-- The collection has the test that is selected. -/
def Known (s : Server) : Prop := ∀ t, s.selected = some t → s.collection.has t = true

theorem presents_chain {s : Server} (indexed : ∀ x ∈ s.collection.suites, x.Indexed)
    (mode : s.mode = .selectedTest) (known : s.Known) (d : X509.Draws)
    (serverName : Option String) :
    Presents s.collection d s.selected (s.chain d serverName) := by
  cases selected : s.selected with
  | none =>
    have failed : s.chain d serverName = .error .noTestSelected := by
      simp only [chain, mode, selected]
    rw [failed]
    refine { set := ?_, unset := ?_, found := ?_ }
    · intro t chosen
      cases chosen
    · simp
    · intro e refused _
      cases refused
      rfl
  | some t =>
    obtain ⟨test, found⟩ := (Collection.exists_test_iff indexed t).mpr (known t selected)
    have chained : s.chain d serverName = s.collection.chain d test := by
      simp only [chain, mode, selected, found]
      rfl
    have noLookup := s.collection.noLookup_chain d test
    rw [chained]
    refine { set := ?_, unset := ?_, found := ?_ }
    · intro t' chosen
      cases chosen
      exact ⟨test, found, rfl⟩
    · constructor
      · intro failed
        cases noLookup _ failed
      · intro unset
        cases unset
    · intro e failed lookup
      rw [noLookup e failed] at lookup
      cases lookup

/-! ## What a server knows of its history -/

/-- What a server with a history has selected, what it does with any event to come, and what the
handshakes of its history were answered. -/
structure Tracks (c : Collection) (history : List (Event × Answer)) (s : Server) : Prop where
  last : s.selected = lastSelected history
  given : ∀ t, s.selected = some t → c.has t = true ∧
    ∃ p ∈ history, p.1.test? = some t ∧ p.1.isSelection = true ∧ p.2.isSuccess = true
  accepts : ∀ e t, e.test? = some t → ((s.step e).2.isSuccess = true ↔ c.has t = true)
  /-- A call and a request that name the same test have the same result. -/
  alike : ∀ e e' t, e.test? = some t → e'.test? = some t → (s.step e).1 = (s.step e').1 ∧
    ∃ result, (s.step e).2 = e.answer result ∧ (s.step e').2 = e'.answer result
  stores : ∀ e, e.isSelection = true → (s.step e).2.isSuccess = true →
    ∃ t, e.test? = some t ∧ (s.step e).1 = { s with selected := some t }
  keeps : ∀ e, e.isSelection = false ∨ (s.step e).2.isSuccess = false → (s.step e).1 = s
  presents : ∀ d serverName, Presents c d s.selected (s.chain d serverName)
  presented : ∀ before d serverName a after,
    history = before ++ (.handshake d serverName, a) :: after →
      ∃ chain, a = .chain chain ∧ Presents c d (lastSelected before) chain

theorem alike_of_test? (s : Server) {e e' : Event} {t : SelectedTest} (named : e.test? = some t)
    (named' : e'.test? = some t) : (s.step e).1 = (s.step e').1 ∧
      ∃ result, (s.step e).2 = e.answer result ∧ (s.step e').2 = e'.answer result := by
  rw [step_of_test? s named, step_of_test? s named']
  cases s.select t.suite t.index with
  | error x => exact ⟨rfl, .error x, rfl, rfl⟩
  | ok selected => exact ⟨rfl, .ok (), rfl, rfl⟩

section

variable {s : Server} (indexed : ∀ x ∈ s.collection.suites, x.Indexed)
include indexed

theorem isSuccess_iff_has {e : Event} {t : SelectedTest} (named : e.test? = some t) :
    (s.step e).2.isSuccess = true ↔ s.collection.has t = true := by
  have success := isSuccess_step indexed e
  rw [Event.isSelection_of_test? named, Bool.true_and, Event.selection, named] at success
  rw [success, Option.isSome_filter, Option.any_some]

theorem stores_of_isSuccess {e : Event} (selects : e.isSelection = true)
    (success : (s.step e).2.isSuccess = true) :
    ∃ t, e.test? = some t ∧ (s.step e).1 = { s with selected := some t } := by
  rcases step_cases indexed e with ⟨t, chosen, stepped⟩ | ⟨-, -, failed⟩
  · exact ⟨t, (Event.selection_eq_some_iff.mp chosen).1, congrArg Prod.fst stepped⟩
  · rw [selects, success] at failed
    cases failed

theorem keeps_of_not_isSuccess {e : Event}
    (fails : e.isSelection = false ∨ (s.step e).2.isSuccess = false) : (s.step e).1 = s := by
  rcases step_cases indexed e with ⟨t, chosen, stepped⟩ | ⟨-, kept, -⟩
  · have selects := Event.isSelection_of_test? (Event.selection_eq_some_iff.mp chosen).1
    rw [stepped, isSuccess_answer_ok, selects] at fails
    rcases fails with h | h <;> cases h
  · exact kept

end

section

variable {c : Collection} (indexed : ∀ x ∈ c.suites, x.Indexed) (mode : SelectionMode)
include indexed

theorem run_start (events : List Event) : (start c mode).run events =
    ⟨c, mode, lastSelected ((start c mode).answers events)⟩ := by
  rw [run_eq (s := start c mode) indexed]
  exact congrArg _ Option.or_none

theorem known_run (events : List Event) : ((start c mode).run events).Known := by
  intro t selected
  rw [run_start indexed] at selected ⊢
  obtain ⟨p, member, chosen⟩ := exists_of_lastSelected selected
  rw [chosen?_of_mem (s := start c mode) indexed member] at chosen
  exact (Event.selection_eq_some_iff.mp chosen).2

theorem presents_run (events : List Event) (d : X509.Draws) (serverName : Option String) :
    Presents c d (lastSelected ((start c .selectedTest).answers events))
      (((start c .selectedTest).run events).chain d serverName) := by
  have known := known_run indexed .selectedTest events
  rw [run_start indexed] at known ⊢
  exact presents_chain (s := ⟨c, .selectedTest, _⟩) indexed rfl known d serverName

theorem tracks_run (events : List Event) :
    Tracks c ((start c .selectedTest).answers events) ((start c .selectedTest).run events) := by
  have reached := run_start indexed .selectedTest events
  have known := known_run indexed .selectedTest events
  have indexed' : ∀ x ∈ ((start c .selectedTest).run events).collection.suites, x.Indexed := by
    rwa [reached]
  refine {
    last := by rw [reached]
    given := ?given
    accepts := ?accepts
    alike := fun e e' t => alike_of_test? _
    stores := fun e => stores_of_isSuccess indexed'
    keeps := fun e => keeps_of_not_isSuccess indexed'
    presents := ?presents
    presented := ?presented }
  case given =>
    intro t selected
    have has := known t selected
    rw [reached] at has selected
    obtain ⟨p, member, chosen⟩ := exists_of_lastSelected selected
    obtain ⟨success, named⟩ := chosen?_eq_some_iff.mp chosen
    exact ⟨has, p, member, named, Bool.and_eq_true_iff.mp success⟩
  case accepts =>
    intro e t named
    have accepted := isSuccess_iff_has indexed' named
    rwa [reached] at accepted ⊢
  case presents =>
    intro d serverName
    have presents := presents_run indexed events d serverName
    rwa [reached] at presents ⊢
  case presented =>
    intro before d serverName a after split
    obtain ⟨earlier, answer⟩ := answer_of_split split
    refine ⟨_, answer, ?_⟩
    rw [earlier, events_answers]
    exact presents_run indexed _ d serverName

end

end ChainConformance.Server
