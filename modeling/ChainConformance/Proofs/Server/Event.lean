import ChainConformance.Proofs.Json.RoundTrip
import ChainConformance.Proofs.Server.Lookup
import ChainConformance.Server.Control
import Mathlib.Data.Nat.Digits.Defs

/-!
# What one event does to a server

A server is called to select a test, gets requests and gets handshakes. `Server.step` is the server
after one of these events, with the answer. Proved here:

* `step_of_test?`: every event that names a test is checked, stored and answered in the same way;
* `step_cases`: an event selects the test that it names, if the collection has it, and says so; any
  other event leaves the server as it is;
* `exists_call_iff_exists_request`: calls and requests can name the same tests.
-/

namespace ChainConformance.Server

/-! ## Events -/

/-- What a server can be asked. -/
inductive Event where
  | call (suite : String) (index : UInt64)
  | request (r : Request)
  | handshake (d : X509.Draws) (serverName : Option String)

inductive Answer where
  | result (result : Except Error Unit)
  | response (response : Response)
  | chain (chain : Except Error X509.Chain)

/-- The server after an event, and the answer. -/
def step (s : Server) : Event → Server × Answer
  | .call suite index =>
    match s.select suite index.toNat with
    | .error e => (s, .result (.error e))
    | .ok selected => (selected, .result (.ok ()))
  | .request r => ((s.handle r).1, .response (s.handle r).2)
  | .handshake d serverName => (s, .chain (s.chain d serverName))

/-- Whether the request is one for a selection. -/
def Request.selects (r : Request) : Bool := r.path = "/setTest" && r.method = "POST"

/-- The test that the body of a request names. -/
def bodyTest? (body : Bytes) : Option SelectedTest :=
  if body.length ≤ bodyLimit then (readSelection? body).map fun p => ⟨p.1, p.2⟩ else none

namespace Event

/-- Whether the event asks for a selection. -/
def isSelection : Event → Bool
  | .call .. => true
  | .request r => r.selects
  | .handshake .. => false

/-- The test that an event names for selection. -/
def test? : Event → Option SelectedTest
  | .call suite index => some ⟨suite, index.toNat⟩
  | .request r => if r.selects then bodyTest? r.body else none
  | .handshake .. => none

/-- The test that an event names, if the collection has it. -/
def selection (c : Collection) (e : Event) : Option SelectedTest := e.test?.filter c.has

theorem selection_eq_some_iff {c : Collection} {e : Event} {t : SelectedTest} :
    e.selection c = some t ↔ e.test? = some t ∧ c.has t = true := by
  rw [selection, Option.filter_eq_some_iff]

/-- How an event for a selection is told the result. -/
def answer (result : Except Error Unit) : Event → Answer
  | .request _ =>
    .response (match result with
      | .ok () => .empty 200
      | .error e => .badRequest e)
  | _ => .result result

theorem isSelection_of_test? {e : Event} {t : SelectedTest} (named : e.test? = some t) :
    e.isSelection = true := by
  cases e with
  | call suite index => rfl
  | request r =>
    rw [test?] at named
    split at named
    · assumption
    · cases named
  | handshake d serverName => cases named

end Event

def Answer.isSuccess : Answer → Bool
  | .result (.ok _) => true
  | .response r => r.status = 200
  | .chain (.ok _) => true
  | _ => false

/-! ## One event -/

@[simp] theorem isSuccess_answer_ok (e : Event) : (e.answer (.ok ())).isSuccess = true := by
  cases e <;> rfl

@[simp] theorem isSuccess_answer_error (e : Event) (x : Error) :
    (e.answer (.error x)).isSuccess = false := by
  cases e <;> rfl

section

variable {s : Server} (indexed : ∀ x ∈ s.collection.suites, x.Indexed)
include indexed

theorem select_of_has {t : SelectedTest} (has : s.collection.has t = true) :
    s.select t.suite t.index = .ok { s with selected := some t } := by
  obtain ⟨test, found⟩ := (Collection.exists_test_iff indexed t).mpr has
  exact bind_eq_ok_iff.mpr ⟨test, found, rfl⟩

theorem exists_error_of_not_has {t : SelectedTest} (lacks : s.collection.has t = false) :
    ∃ e, s.select t.suite t.index = .error e := by
  cases found : s.collection.test t.suite t.index with
  | error e => exact ⟨e, bind_eq_error_iff.mpr (Or.inl found)⟩
  | ok test =>
    have has := (Collection.exists_test_iff indexed t).mp ⟨test, found⟩
    rw [lacks] at has
    cases has

end

theorem setTest_of_bodyTest? {s : Server} {body : Bytes} {t : SelectedTest}
    (named : bodyTest? body = some t) : s.setTest body =
      match s.select t.suite t.index with
      | .error e => (s, .badRequest e)
      | .ok selected => (selected, .empty 200) := by
  rw [bodyTest?] at named
  split at named
  · next short =>
    obtain ⟨⟨suite, index⟩, read, rfl⟩ := Option.map_eq_some_iff.mp named
    cases selected : s.select suite index with
    | error e => simp only [setTest, if_neg (Nat.not_lt.mpr short), read, selected]
    | ok s' => simp only [setTest, if_neg (Nat.not_lt.mpr short), read, selected]
  · cases named

/-- A body that names no test leaves the server alone. -/
theorem setTest_of_bodyTest?_none {s : Server} {body : Bytes} (unnamed : bodyTest? body = none) :
    (s.setTest body).1 = s ∧ (s.setTest body).2.status ≠ 200 := by
  rw [bodyTest?] at unnamed
  rw [setTest]
  split
  · exact ⟨rfl, by simp [Response.text]⟩
  · next short =>
    rw [if_pos (Nat.not_lt.mp short), Option.map_eq_none_iff] at unnamed
    rw [unnamed]
    exact ⟨rfl, by simp [Response.text]⟩

/-- Requests for anything else than a selection leave the server alone. -/
theorem handle_of_not_selects {s : Server} {r : Request} (other : r.selects = false) :
    (s.handle r).1 = s := by
  rw [handle]
  split
  any_goals rfl
  next path =>
    split
    · next method => simp [Request.selects, path, method] at other
    · rfl

theorem handle_of_selects {s : Server} {r : Request} (selects : r.selects = true) :
    s.handle r = s.setTest r.body := by
  obtain ⟨path, method⟩ : r.path = "/setTest" ∧ r.method = "POST" := by
    simpa [Request.selects] using selects
  rw [handle, path]
  exact if_pos method

/-- Every event that names a test is checked, stored and answered in the same way. -/
theorem step_of_test? (s : Server) {e : Event} {t : SelectedTest} (named : e.test? = some t) :
    s.step e = match s.select t.suite t.index with
      | .error x => (s, e.answer (.error x))
      | .ok selected => (selected, e.answer (.ok ())) := by
  cases e with
  | call suite index =>
    cases named
    rfl
  | request r =>
    have selects : r.selects = true := Event.isSelection_of_test? named
    have body : bodyTest? r.body = some t := by
      rwa [Event.test?, if_pos selects] at named
    rw [step, handle_of_selects selects, setTest_of_bodyTest? body]
    split <;> rfl
  | handshake d serverName => cases named

section

variable {s : Server} (indexed : ∀ x ∈ s.collection.suites, x.Indexed)
include indexed

theorem step_of_has {e : Event} {t : SelectedTest} (named : e.test? = some t)
    (has : s.collection.has t = true) :
    s.step e = ({ s with selected := some t }, e.answer (.ok ())) := by
  rw [step_of_test? s named, select_of_has indexed has]

theorem step_of_not_has {e : Event} {t : SelectedTest} (named : e.test? = some t)
    (lacks : s.collection.has t = false) : ∃ x, s.step e = (s, e.answer (.error x)) := by
  obtain ⟨x, failed⟩ := exists_error_of_not_has indexed lacks
  exact ⟨x, by rw [step_of_test? s named, failed]⟩

end

/-- An event that names no test leaves the server alone, and it is no selection that succeeds. -/
theorem step_of_test?_none {s : Server} {e : Event} (unnamed : e.test? = none) :
    (s.step e).1 = s ∧ (e.isSelection && (s.step e).2.isSuccess) = false := by
  cases e with
  | call suite index => cases unnamed
  | request r =>
    cases selects : r.selects with
    | true =>
      rw [Event.test?, if_pos selects] at unnamed
      obtain ⟨same, failed⟩ := setTest_of_bodyTest?_none (s := s) unnamed
      rw [step, handle_of_selects selects]
      exact ⟨same, by simp [Answer.isSuccess, failed]⟩
    | false => exact ⟨handle_of_not_selects selects, by simp [Event.isSelection, selects]⟩
  | handshake d serverName => exact ⟨rfl, rfl⟩

section

variable {s : Server} (indexed : ∀ x ∈ s.collection.suites, x.Indexed)
include indexed

/-- An event selects the test that it names, if the collection has it. Any other event leaves the
server alone, and it is no selection that succeeds. -/
theorem step_cases (e : Event) :
    (∃ t, e.selection s.collection = some t ∧
      s.step e = ({ s with selected := some t }, e.answer (.ok ()))) ∨
    (e.selection s.collection = none ∧ (s.step e).1 = s ∧
      (e.isSelection && (s.step e).2.isSuccess) = false) := by
  cases named : e.test? with
  | none =>
    have unnamed : e.selection s.collection = none := by
      rw [Event.selection, named, Option.filter_none]
    exact Or.inr ⟨unnamed, step_of_test?_none named⟩
  | some t =>
    cases has : s.collection.has t with
    | true =>
      exact Or.inl ⟨t, Event.selection_eq_some_iff.mpr ⟨named, has⟩, step_of_has indexed named has⟩
    | false =>
      obtain ⟨x, failed⟩ := step_of_not_has indexed named has
      have refused : e.selection s.collection = none := by
        rw [Event.selection, named, Option.filter_some, if_neg (Bool.eq_false_iff.mp has)]
      exact Or.inr ⟨refused, by rw [failed], by rw [failed, isSuccess_answer_error, Bool.and_false]⟩

theorem step_server (e : Event) :
    (s.step e).1 = { s with selected := (e.selection s.collection).or s.selected } := by
  rcases step_cases indexed e with ⟨t, chosen, stepped⟩ | ⟨unchosen, kept, -⟩
  · rw [stepped, chosen, Option.some_or]
  · rw [kept, unchosen, Option.none_or]

theorem isSuccess_step (e : Event) :
    (e.isSelection && (s.step e).2.isSuccess) = (e.selection s.collection).isSome := by
  rcases step_cases indexed e with ⟨t, chosen, stepped⟩ | ⟨unchosen, -, failed⟩
  · have named := (Event.selection_eq_some_iff.mp chosen).1
    rw [stepped, chosen, isSuccess_answer_ok, Event.isSelection_of_test? named]
    rfl
  · rw [failed, unchosen]
    rfl

end

/-! ## Bodies -/

/-- A test as the record that a body holds. -/
def selectionRecord (t : SelectedTest) : Json :=
  .obj [("suite", .str t.suite), ("testCase", .nat t.index)]

/-- A body that names a test. -/
def selectionBody (t : SelectedTest) : Bytes := Bytes.ofString (selectionRecord t).compact

theorem written_selectionRecord (t : SelectedTest) : (selectionRecord t).Written := by
  refine .obj fun m member => ?_
  rcases List.mem_pair.mp member with rfl | rfl
  · exact .str _
  · exact .int _

theorem readSelection?_selectionBody {t : SelectedTest} (bound : t.index < Text.indexLimit) :
    readSelection? (selectionBody t) = some (t.suite, t.index) := by
  have fields : (selectionRecord t).asRecord? ["suite", "testCase"] =
      some [.str t.suite, .nat t.index] := rfl
  have index : (Json.nat t.index).asNat? Text.indexLimit = some t.index :=
    if_pos ⟨Int.natCast_nonneg _, bound⟩
  have text : (Json.str t.suite).asString? = some t.suite := rfl
  simp only [readSelection?, selectionBody, Json.text?_ofString, Option.bind_eq_bind,
    Option.bind_some, Json.read_compact (written_selectionRecord t), fields, index, text]
  rfl

/-- Bytes that are no character do no harm in a field that nobody reads. -/
example : readSelection? (Bytes.ofString "\x7b\"suite\":\"s\",\"testCase\":3,\"note\":\"" ++
    [0xC3, 0xFF] ++ Bytes.ofString "\"\x7d") = some ("s", 3) := by
  decide +kernel

theorem length_selectionBody_le {t : SelectedTest} (bound : t.index < Text.indexLimit)
    (named : t.suite = NameConstraints.suiteName ∨ t.suite = PathBuilding.suiteName) :
    (selectionBody t).length ≤ bodyLimit := by
  have digits : (Json.renderInt t.index).length ≤ 20 :=
    Nat.toDigits_length 10 t.index 20 (by decide) (Nat.lt_trans bound (by decide))
  have name : (Json.renderText t.suite).length ≤ 17 := by
    rcases named with named | named <;> rw [named] <;> decide
  have first : (Json.renderText "suite").length = 7 := by decide
  have second : (Json.renderText "testCase").length = 10 := by decide
  have record : (Json.render .compact 0 (selectionRecord t)).length ≤ 64 := by
    simp only [selectionRecord, Json.obj, List.map_cons, List.map_nil, Json.render,
      Json.renderMember, Json.renderMembers, Json.Literal.render, Json.Literal.ofString, Json.str,
      Json.nat, Json.Layout.newline, Json.Layout.colon, Option.getD_some, List.length_append,
      List.length_cons, List.length_nil]
    omega
  have encoded := Bytes.length_ofString_le (Json.render .compact 0 (selectionRecord t))
  have room : 4 * 64 ≤ bodyLimit := by decide
  exact encoded.trans ((Nat.mul_le_mul_left 4 record).trans room)

/-- A body can only name what an index of a call can be, too. -/
theorem index_of_readSelection? {body : Bytes} {suite : String} {index : Nat}
    (read : readSelection? body = some (suite, index)) : index < Text.indexLimit := by
  simp only [readSelection?, Option.bind_eq_bind, Option.bind_eq_some_iff] at read
  obtain ⟨text, -, record, -, fields, -, read⟩ := read
  split at read
  · simp only [Option.bind_eq_some_iff] at read
    obtain ⟨name, -, number, numbered, ⟨⟩⟩ := read
    exact Json.lt_of_asNat? numbered
  · cases read

theorem index_of_bodyTest? {body : Bytes} {t : SelectedTest} (named : bodyTest? body = some t) :
    t.index < Text.indexLimit := by
  rw [bodyTest?] at named
  split at named
  · obtain ⟨_, read, rfl⟩ := Option.map_eq_some_iff.mp named
    exact index_of_readSelection? read
  · cases named

/-- A call can name a test of the two suites if and only if a request can. -/
theorem exists_call_iff_exists_request {c : Collection}
    (names : c.names = [NameConstraints.suiteName, PathBuilding.suiteName]) {t : SelectedTest}
    (has : c.has t = true) :
    (∃ suite index, (Event.call suite index).test? = some t) ↔
      ∃ r, (Event.request r).test? = some t := by
  constructor
  · rintro ⟨suite, index, ⟨⟩⟩
    have named := Collection.name_of_has has
    rw [names, List.mem_pair] at named
    have bound : index.toNat < Text.indexLimit := index.toNat_lt
    refine ⟨⟨"POST", "/setTest", "", selectionBody ⟨suite, index.toNat⟩⟩, ?_⟩
    have selects (body : Bytes) : Request.selects ⟨"POST", "/setTest", "", body⟩ = true := rfl
    rw [Event.test?, if_pos (selects _), bodyTest?, if_pos (length_selectionBody_le bound named),
      readSelection?_selectionBody bound]
    rfl
  · rintro ⟨r, named⟩
    rw [Event.test?] at named
    split at named
    · have bound : t.index < UInt64.size := index_of_bodyTest? named
      refine ⟨t.suite, .ofNat t.index, ?_⟩
      rw [Event.test?, UInt64.toNat_ofNat_of_lt' bound]
    · cases named

end ChainConformance.Server
