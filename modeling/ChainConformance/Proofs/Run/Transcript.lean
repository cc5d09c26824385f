import ChainConformance.Run.Execution
import Mathlib.Data.List.Forall2

/-!
# What a client was asked

The questions that a run puts to its client, with the answers, as data of their own. `Dialogue` ties
them to the client, whose state each answer may change; `Through` and `Until` compare them with a
list of indices that was to be asked. `Ends` says what a part of a run leaves behind, and `Asked`
which questions it put on the way. Every part of a run is described by these two:

* `ask_ends`: one question;
* `Ends.bind`, `Ends.bind_error`: parts one after the other.
-/

namespace ChainConformance

/-- One question to a client: the test that it is about, and the answer. -/
structure Exchange (σ : Type) where
  index : Nat
  test : TestCase σ
  answer : Except Error Bool

namespace Exchange

variable {σ : Type}

def Answered (x : Exchange σ) : Prop := ∃ accepted, x.answer = .ok accepted

def Fails (e : Error) (x : Exchange σ) : Prop := x.answer = .error e

/-- The answer contradicts a hard expectation; a soft one cannot be contradicted. -/
def Contradicts (x : Exchange σ) : Prop :=
  (x.test.expected = .pass ∧ x.answer = .ok false) ∨ (x.test.expected = .fail ∧ x.answer = .ok true)

def Agrees (x : Exchange σ) : Prop := x.Answered ∧ ¬ x.Contradicts

theorem Contradicts.answered {x : Exchange σ} (h : x.Contradicts) : x.Answered := by
  rcases h with ⟨-, answer⟩ | ⟨-, answer⟩
  · exact ⟨false, answer⟩
  · exact ⟨true, answer⟩

theorem not_fails_of_answered {x : Exchange σ} {e : Error} (h : x.Answered) : ¬ x.Fails e := by
  obtain ⟨accepted, answer⟩ := h
  simp [Fails, answer]

theorem contradicts_iff {x : Exchange σ} {accepted : Bool} (h : x.answer = .ok accepted) :
    x.Contradicts ↔ x.test.expected.contradicts (.ofAnswer accepted) = true := by
  cases expected : x.test.expected <;> cases accepted <;>
    simp [Contradicts, Expectation.contradicts, Outcome.ofAnswer, expected, h]

end Exchange

namespace Run

variable {σ τ α β : Type}

/-! ## Questions in order -/

/-- The client is asked these questions in order, in the state that the answer before has left. -/
inductive Dialogue (s : Suite σ) (client : Client σ τ) : τ → List (Exchange σ) → τ → Prop
  | nil (state : τ) : Dialogue s client state [] state
  | cons {before middle after : τ} {x : Exchange σ} {rest : List (Exchange σ)}
      (found : s.test x.index = .ok x.test)
      (answers : client x.index x.test before = (x.answer, middle))
      (later : Dialogue s client middle rest after) : Dialogue s client before (x :: rest) after

theorem Dialogue.append {s : Suite σ} {client : Client σ τ} {before middle after : τ}
    {xs ys : List (Exchange σ)} (first : Dialogue s client before xs middle)
    (second : Dialogue s client middle ys after) : Dialogue s client before (xs ++ ys) after := by
  induction first with
  | nil => exact second
  | cons found answers _ ih => exact .cons found answers (ih second)

theorem Dialogue.found {s : Suite σ} {client : Client σ τ} {before after : τ}
    {xs : List (Exchange σ)} (h : Dialogue s client before xs after) :
    ∀ x ∈ xs, s.test x.index = .ok x.test := by
  induction h with
  | nil => simp
  | cons found _ _ ih =>
    intro x member
    rcases List.mem_cons.mp member with rfl | member
    · exact found
    · exact ih x member

/-- Each answer is the client's, in some state. -/
theorem Dialogue.answers {s : Suite σ} {client : Client σ τ} {before after : τ}
    {xs : List (Exchange σ)} (h : Dialogue s client before xs after) :
    ∀ x ∈ xs, ∃ state, (client x.index x.test state).1 = x.answer := by
  induction h with
  | nil => simp
  | cons _ answers _ ih =>
    intro x member
    rcases List.mem_cons.mp member with rfl | member
    · exact ⟨_, congrArg Prod.fst answers⟩
    · exact ih x member

/-! ## Questions and indices -/

/-- The questions are about the indices, all of them in their order, and all of them are good. -/
def Through (good : Exchange σ → Prop) (indices : List Nat) (xs : List (Exchange σ)) : Prop :=
  xs.map (·.index) = indices ∧ ∀ x ∈ xs, good x

/-- The questions are about the indices in their order up to the first question that is not good,
which is bad. -/
def Until (good bad : Exchange σ → Prop) (indices : List Nat) (xs : List (Exchange σ)) : Prop :=
  ∃ (before : List (Exchange σ)) (x : Exchange σ) (after : List Nat), xs = before ++ [x] ∧
    indices = xs.map (·.index) ++ after ∧ (∀ y ∈ before, good y) ∧ bad x

section
variable {good bad : Exchange σ → Prop} {indices : List Nat} {x : Exchange σ}
  {xs : List (Exchange σ)}

theorem Through.nil : Through good [] [] := ⟨rfl, by simp⟩

theorem Through.cons (first : good x) (h : Through good indices xs) :
    Through good (x.index :: indices) (x :: xs) := by
  obtain ⟨order, all⟩ := h
  refine ⟨by simp [order], ?_⟩
  intro y member
  rcases List.mem_cons.mp member with rfl | member
  · exact first
  · exact all y member

theorem Until.here (last : bad x) : Until good bad (x.index :: indices) [x] :=
  ⟨[], x, indices, rfl, rfl, by simp, last⟩

theorem Until.cons (first : good x) (h : Until good bad indices xs) :
    Until good bad (x.index :: indices) (x :: xs) := by
  obtain ⟨before, last, after, rfl, order, all, ends⟩ := h
  refine ⟨x :: before, last, after, rfl, by simp [order], ?_, ends⟩
  intro y member
  rcases List.mem_cons.mp member with rfl | member
  · exact first
  · exact all y member

end

/-! ## Parts of a run -/

/-- Started in the first state, the part ends with the result in the second one. -/
def Ends (part : RunM τ α) (before : RunState τ) (result : Except Error α)
    (after : RunState τ) : Prop :=
  part.run.run before = (result, after)

section
variable {part : RunM τ α} {next : α → RunM τ β} {value : α} {e : Error}
  {before middle after : RunState τ}

theorem run_bind (part : RunM τ α) (next : α → RunM τ β) (before : RunState τ) :
    (part >>= next).run.run before = match part.run.run before with
      | (.ok value, middle) => (next value).run.run middle
      | (.error e, middle) => (.error e, middle) := by
  rw [ExceptT.run_bind, StateT.run_bind]
  rcases part.run.run before with ⟨_ | _, _⟩ <;> rfl

theorem Ends.bind {result : Except Error β} (first : Ends part before (.ok value) middle)
    (later : Ends (next value) middle result after) : Ends (part >>= next) before result after := by
  rw [Ends, run_bind, first]
  exact later

theorem Ends.bind_error (first : Ends part before (.error e) after) :
    Ends (part >>= next) before (.error e) after := by
  rw [Ends, run_bind, first]

theorem ends_pure (before : RunState τ) : Ends (pure value) before (.ok value) before := rfl

theorem ends_throw (before : RunState τ) : Ends (throw e : RunM τ α) before (.error e) before := rfl

theorem Ends.of_bind {result : Except Error β} (ends : Ends (part >>= next) before result after) :
    (∃ e, result = .error e ∧ Ends part before (.error e) after) ∨
      ∃ value middle, Ends part before (.ok value) middle ∧
        Ends (next value) middle result after := by
  rw [Ends, run_bind] at ends
  rcases first : part.run.run before with ⟨e | value, middle⟩
  · rw [first] at ends
    obtain ⟨rfl, rfl⟩ := Prod.mk.inj ends
    exact Or.inl ⟨e, rfl, first⟩
  · rw [first] at ends
    exact Or.inr ⟨value, middle, first, ends⟩

theorem Ends.of_pure {result : Except Error α} (ends : Ends (pure value) before result after) :
    result = .ok value ∧ after = before := by
  obtain ⟨rfl, rfl⟩ := Prod.mk.inj (ends.symm.trans (ends_pure before))
  exact ⟨rfl, rfl⟩

theorem Ends.unique {after' : RunState τ} {result result' : Except Error α}
    (ends : Ends part before result after) (ends' : Ends part before result' after') :
    result' = result ∧ after' = after :=
  Prod.mk.inj (ends'.symm.trans ends)

/-- A look-up leaves the state alone. -/
theorem ends_found {lookUp : Except Error α} (found : lookUp = .ok value) (before : RunState τ) :
    Ends (liftM lookUp : RunM τ α) before (.ok value) before := by
  rw [found]
  rfl

end

/-- From the first state to the second one, the client was asked these questions and no others. -/
structure Asked (s : Suite σ) (client : Client σ τ) (before : RunState τ) (xs : List (Exchange σ))
    (after : RunState τ) : Prop where
  dialogue : Dialogue s client before.client xs after.client
  calls : after.calls.toList = before.calls.toList ++ xs.map (·.index)

section
variable {s : Suite σ} {client : Client σ τ} {before middle after : RunState τ}
  {xs ys : List (Exchange σ)}

theorem asked_nil (before : RunState τ) : Asked s client before [] before :=
  ⟨.nil _, by simp⟩

theorem Asked.append (first : Asked s client before xs middle)
    (second : Asked s client middle ys after) : Asked s client before (xs ++ ys) after := by
  refine ⟨first.dialogue.append second.dialogue, ?_⟩
  rw [second.calls, first.calls, List.map_append, List.append_assoc]

/-- Telling an observer asks nothing. -/
theorem notify_ends (s : Suite σ) (client : Client σ τ) (e : Event) (before : RunState τ) :
    ∃ after, Ends (notify e) before (.ok ()) after ∧ Asked s client before [] after :=
  ⟨{ before with events := before.events.push e }, rfl, .nil _, by simp⟩

theorem ends_ask {index : Nat} {t : TestCase σ} {answer : Except Error Bool} {state : τ}
    (heard : client index t before.client = (answer, state)) :
    Ends (ask client index t) before (answer.map Outcome.ofAnswer)
      { before with client := state, calls := before.calls.push index } := by
  have known : Ends (get : RunM τ (RunState τ)) before (.ok before) before := rfl
  refine known.bind ?_
  have kept (after : RunState τ) : Ends (set after : RunM τ Unit) before (.ok ()) after := rfl
  refine (kept _).bind ?_
  rw [heard]
  cases answer <;> rfl

/-- A question is asked once, and its outcome is that of the answer. -/
theorem ask_ends {index : Nat} {t : TestCase σ} (found : s.test index = .ok t)
    (client : Client σ τ) (before : RunState τ) :
    ∃ (x : Exchange σ) (after : RunState τ), x.index = index ∧ x.test = t ∧
      Ends (ask client index t) before (x.answer.map Outcome.ofAnswer) after ∧
      Asked s client before [x] after := by
  rcases heard : client index t before.client with ⟨answer, state⟩
  refine ⟨⟨index, t, answer⟩,
    { before with client := state, calls := before.calls.push index }, rfl, rfl, ends_ask heard,
    ?_, ?_⟩
  · exact .cons found heard (.nil _)
  · simp

end

end Run

end ChainConformance
