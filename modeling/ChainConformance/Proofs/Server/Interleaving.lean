import ChainConformance.Proofs.Server.Selection
import Mathlib.Data.List.Induction
import Mathlib.Data.List.Perm.Basic

/-!
# Selections that overlap

A selection is checked first and stored later, and other events come between. A `Session` holds the
selections that are checked and not yet stored. Proved here:

* `serial_run`: whatever the order of the actions, the server and all answers are those of one event
  after the other, each in the place where it had its effect;
* `tracks_last_selection`: hence the test of the last successful selection is selected, nothing but
  such a selection changes that, and a handshake gets the chain of that test or, if there is none,
  is told so.

That the check may be out of date when its test is stored does no harm: it looks at the collection
alone, which no event changes.
-/

namespace ChainConformance.Server

/-! ## Sessions -/

/-- A selection that is checked and not yet stored, with the answer that it will get. -/
structure Checked where
  event : Event
  test : SelectedTest
  answer : Answer

/-- The test is the one that the event names, the collection has it, and the answer says so. -/
structure Checked.Holds (c : Collection) (p : Checked) : Prop where
  named : p.event.test? = some p.test
  has : c.has p.test = true
  accepted : p.answer = p.event.answer (.ok ())

/-- A server in use, with the events that have had their effect, in this order, and their
answers. -/
structure Session where
  server : Server
  checked : List Checked
  history : List (Event × Answer)

/-- An event begins, or the `i`-th of the selections that are checked is stored. -/
inductive Action where
  | begin (e : Event)
  | store (i : Nat)

def Action.event? : Action → Option Event
  | .begin e => some e
  | .store _ => none

/-- The test that an event is about to store: the one that it leaves on a server without any. -/
def stores? (s : Server) (e : Event) : Option SelectedTest :=
  (({ s with selected := none } : Server).step e).1.selected

namespace Session

def start (s : Server) : Session := ⟨s, [], []⟩

/-- The session after an action. A handshake reads the selection when it begins, and makes its chain
of what it has read. -/
def act (σ : Session) : Action → Session
  | .begin e =>
    match σ.server.stores? e with
    | none => { σ with history := σ.history ++ [(e, (σ.server.step e).2)] }
    | some t => { σ with checked := σ.checked ++ [⟨e, t, (σ.server.step e).2⟩] }
  | .store i =>
    match σ.checked[i]? with
    | none => σ
    | some p =>
      { server := { σ.server with selected := some p.test }
        checked := σ.checked.eraseIdx i
        history := σ.history ++ [(p.event, p.answer)] }

def run (σ : Session) (actions : List Action) : Session := actions.foldl act σ

/-- The session of a new server that presents the test that is selected. -/
def serve (c : Collection) (actions : List Action) : Session :=
  (start (.start c .selectedTest)).run actions

/-- The events that have had their effect. -/
def events (σ : Session) : List Event := σ.history.map (·.1)

end Session

/-- The session is what one event after the other makes of the server, but for the selections that
are still to be stored. -/
structure Serial (s : Server) (actions : List Action) (σ : Session) : Prop where
  server : σ.server = s.run σ.events
  history : σ.history = s.answers σ.events
  /-- No event is lost, made up or done twice. -/
  begun : (σ.events ++ σ.checked.map (·.event)).Perm (actions.filterMap Action.event?)
  checked : ∀ p ∈ σ.checked, p.Holds s.collection

/-! ## One action -/

theorem stores?_eq {s : Server} (indexed : ∀ x ∈ s.collection.suites, x.Indexed) (e : Event) :
    s.stores? e = e.selection s.collection := by
  have stepped := step_server (s := { s with selected := none }) indexed e
  rw [stores?, stepped]
  exact Option.or_none

namespace Serial

variable {s : Server} {actions : List Action} {σ : Session}

theorem start (s : Server) : Serial s [] (Session.start s) where
  server := rfl
  history := rfl
  begun := .nil
  checked := fun _ member => nomatch member

/-- The next event in the order of the effects. -/
theorem next (serial : Serial s actions σ) {e : Event} {s' : Server} {a : Answer}
    (stepped : σ.server.step e = (s', a)) :
    s' = s.run (σ.events ++ [e]) ∧ σ.history ++ [(e, a)] = s.answers (σ.events ++ [e]) := by
  rw [run_append, answers_append, ← serial.server, ← serial.history]
  constructor
  · exact (congrArg Prod.fst stepped).symm
  · rw [answers, stepped, answers]

theorem events_append (σ : Session) (p : Event × Answer) (server : Server)
    (checked : List Checked) :
    Session.events ⟨server, checked, σ.history ++ [p]⟩ = σ.events ++ [p.1] :=
  List.map_append

/-- An event that stores nothing has its effect as soon as it begins. -/
theorem answered (serial : Serial s actions σ) {e : Event} {a : Answer}
    (stepped : σ.server.step e = (σ.server, a)) :
    Serial s (actions ++ [.begin e]) { σ with history := σ.history ++ [(e, a)] } := by
  obtain ⟨server, history⟩ := serial.next stepped
  refine ⟨?_, ?_, ?_, serial.checked⟩
  · rwa [events_append]
  · rwa [events_append]
  · rw [events_append, List.filterMap_append, List.append_assoc]
    have moved : ([e] ++ σ.checked.map (·.event)).Perm (σ.checked.map (·.event) ++ [e]) :=
      List.perm_append_comm
    have begun := serial.begun.append_right [e]
    rw [List.append_assoc] at begun
    exact (moved.append_left σ.events).trans begun

/-- A selection that is checked has no effect yet. -/
theorem check (serial : Serial s actions σ) {p : Checked} (holds : p.Holds s.collection) :
    Serial s (actions ++ [.begin p.event]) { σ with checked := σ.checked ++ [p] } := by
  refine ⟨serial.server, serial.history, ?_, ?_⟩
  · rw [List.filterMap_append, List.map_append, ← List.append_assoc]
    exact serial.begun.append_right [p.event]
  · intro q member
    rcases List.mem_append.mp member with before | last
    · exact serial.checked q before
    · exact List.mem_singleton.mp last ▸ holds

variable (indexed : ∀ x ∈ s.collection.suites, x.Indexed)
include indexed

theorem collection (serial : Serial s actions σ) : σ.server.collection = s.collection := by
  rw [serial.server, run_eq indexed]

/-- A selection that is stored has its effect now, as if it were checked now. -/
theorem store (serial : Serial s actions σ) {i : Nat} {p : Checked}
    (position : σ.checked[i]? = some p) :
    Serial s (actions ++ [.store i]) ⟨{ σ.server with selected := some p.test },
      σ.checked.eraseIdx i, σ.history ++ [(p.event, p.answer)]⟩ := by
  obtain ⟨bound, found⟩ := List.getElem?_eq_some_iff.mp position
  have kept := serial.collection indexed
  -- Whatever was stored since the check, the collection is the one that the check looked at.
  have holds := serial.checked p (found ▸ List.getElem_mem bound)
  have stepped := step_of_has (kept ▸ indexed) holds.named (kept ▸ holds.has)
  rw [← holds.accepted] at stepped
  obtain ⟨server, history⟩ := serial.next stepped
  refine ⟨?_, ?_, ?_, fun q member => serial.checked q (List.mem_of_mem_eraseIdx member)⟩
  · rwa [events_append]
  · rwa [events_append]
  · have removed := (List.getElem_cons_eraseIdx_perm bound).map (·.event)
    rw [found] at removed
    rw [events_append, List.filterMap_append, List.append_assoc]
    have begun := serial.begun.trans (.of_eq (List.append_nil _).symm)
    exact (removed.append_left σ.events).trans begun

theorem act (serial : Serial s actions σ) (a : Action) : Serial s (actions ++ [a]) (σ.act a) := by
  have kept := serial.collection indexed
  have indexed' : ∀ x ∈ σ.server.collection.suites, x.Indexed := kept ▸ indexed
  cases a with
  | begin e =>
    have stores := stores?_eq indexed' e
    have stepped := step_server indexed' e
    cases chosen : e.selection σ.server.collection with
    | none =>
      rw [chosen] at stores stepped
      simp only [Session.act, stores]
      exact serial.answered (Prod.ext stepped rfl)
    | some t =>
      obtain ⟨named, has⟩ := Event.selection_eq_some_iff.mp chosen
      have accepted := step_of_has indexed' named has
      rw [chosen] at stores
      simp only [Session.act, stores]
      have holds : Checked.Holds s.collection ⟨e, t, (σ.server.step e).2⟩ :=
        ⟨named, kept ▸ has, congrArg Prod.snd accepted⟩
      exact serial.check holds
  | store i =>
    cases position : σ.checked[i]? with
    | none =>
      simp only [Session.act, position]
      refine ⟨serial.server, serial.history, ?_, serial.checked⟩
      rw [List.filterMap_append]
      exact serial.begun.trans (.of_eq (List.append_nil _).symm)
    | some p =>
      simp only [Session.act, position]
      exact serial.store indexed position

end Serial

/-- Whatever the order of the actions, the session is what one event after the other makes. -/
theorem serial_run {s : Server} (indexed : ∀ x ∈ s.collection.suites, x.Indexed)
    (actions : List Action) : Serial s actions ((Session.start s).run actions) := by
  -- From the end: `act` adds to what earlier actions have led to.
  induction actions using List.reverseRecOn with
  | nil => exact .start s
  | append_singleton actions a ih =>
    rw [Session.run, List.foldl_append]
    exact ih.act indexed a

/-- In whatever order events begin and selections are stored, the test of the last successful
selection is the one that is selected and that handshakes get the chain of. -/
theorem tracks_last_selection (root : Root) : ∃ c, Collection.ofRoot root = .ok c ∧
    (∀ t, c.has t = true → ((∃ suite index, (Event.call suite index).test? = some t) ↔
      ∃ r, (Event.request r).test? = some t)) ∧
    (∀ events, Tracks c ((start c .selectedTest).answers events)
      ((start c .selectedTest).run events)) ∧
    ∀ actions, Serial (start c .selectedTest) actions (Session.serve c actions) ∧
      Tracks c (Session.serve c actions).history (Session.serve c actions).server := by
  obtain ⟨c, made, names, indexed⟩ := Collection.exists_ofRoot root
  refine ⟨c, made, fun t => exists_call_iff_exists_request names, tracks_run indexed,
    fun actions => ?_⟩
  have serial := serial_run (s := start c .selectedTest) indexed actions
  refine ⟨serial, ?_⟩
  rw [Session.serve, serial.history, serial.server]
  exact tracks_run indexed _

end ChainConformance.Server
