import ChainConformance.Run.Results

/-!
# Running a suite against a client

A run asks the client about the sanity test, then about the representatives of every feature up to
the first that contradicts its expectation, then about every test that the filter admits and whose
features are all supported. An error of the client ends the run. Observers are told when the suite
and each of its tests start and finish.
-/

namespace ChainConformance

/-- What a run is restricted to. Without a set of tests, and with one without intervals, every
test is admitted; sanity and feature tests are never left out. -/
structure RunFilter where
  suite : Option String
  tests : Option IndexSet
  deriving DecidableEq, Repr

namespace RunFilter

def all : RunFilter := ⟨none, none⟩

def includesSuite (f : RunFilter) (name : String) : Bool :=
  match f.suite with
  | none => true
  | some only => only = name

def includesTest (f : RunFilter) (index : Nat) : Bool :=
  match f.tests with
  | none => true
  | some set => set.isEmpty || set.contains index

end RunFilter

/-- What an observer is told. -/
inductive Event where
  | suiteStarted (suite : String) (count : Nat)
  | testStarted (index : Nat)
  | testFinished (index : Nat) (outcome : Outcome)
  | suiteFinished (suite : String)
  deriving DecidableEq, Repr

/-- A client answers whether it accepts the chain of a test, or fails; it may change its state. -/
abbrev Client (σ τ : Type) := Nat → TestCase σ → τ → Except Error Bool × τ

/-- The state of the client, the indices that it was asked about, and the events so far. -/
structure RunState (τ : Type) where
  client : τ
  calls : Array Nat
  events : Array Event

/-- A part of a run: it ends with a value or an error, and in either case leaves a state. -/
abbrev RunM (τ : Type) := ExceptT Error (StateM (RunState τ))

namespace Run

variable {σ τ : Type}

def notify (e : Event) : RunM τ Unit :=
  modify fun s => { s with events := s.events.push e }

/-- Asks the client about a test. -/
def ask (client : Client σ τ) (index : Nat) (t : TestCase σ) : RunM τ Outcome := do
  let s ← get
  let (answer, state) := client index t s.client
  set { s with client := state, calls := s.calls.push index }
  match answer with
  | .ok accepted => return .ofAnswer accepted
  | .error e => throw e

/-- Asks about representatives in order, up to the first that contradicts its expectation; says
whether none did. -/
def probe (suite : Suite σ) (client : Client σ τ) : List Nat → RunM τ Bool
  | [] => return true
  | index :: rest => do
    let t ← (suite.test index : Except Error _)
    if t.expected.contradicts (← ask client index t) then return false
    probe suite client rest

/-- The features of a list that the client supports. -/
def probeFeatures (suite : Suite σ) (client : Client σ τ) : List Feature → RunM τ (List Feature)
  | [] => return []
  | f :: rest => do
    let indices ← (suite.representatives f : Except Error _)
    let holds ← probe suite client indices
    let others ← probeFeatures suite client rest
    return if holds then f :: others else others

/-- Runs one test, or skips it. -/
def runTest (filter : RunFilter) (suite : Suite σ) (client : Client σ τ)
    (supported : List Feature) (index : Nat) : RunM τ Outcome := do
  notify (.testStarted index)
  let t ← (suite.test index : Except Error _)
  let outcome ←
    if filter.includesTest index && t.features.all (supported.contains ·) then ask client index t
    else pure .skipped
  notify (.testFinished index outcome)
  return outcome

/-- Runs tests in order. -/
def runTests (filter : RunFilter) (suite : Suite σ) (client : Client σ τ)
    (supported : List Feature) : List Nat → RunM τ (List Outcome)
  | [] => return []
  | index :: rest => do
    let outcome ← runTest filter suite client supported index
    let others ← runTests filter suite client supported rest
    return outcome :: others

/-- Asks about the sanity test, whose expectation must not be contradicted. -/
def checkSanity (suite : Suite σ) (client : Client σ τ) : RunM τ Unit := do
  let t ← (suite.test suite.sanityIndex : Except Error _)
  let outcome ← ask client suite.sanityIndex t
  if t.expected.contradicts outcome then
    throw (.sanityContradicted suite.name t.expected outcome)

/-- Runs a suite. -/
def suite (filter : RunFilter) (suite : Suite σ) (client : Client σ τ) :
    RunM τ SuiteResults := do
  notify (.suiteStarted suite.name suite.count)
  checkSanity suite client
  let supported ← probeFeatures suite client suite.features
  let outcomes ← runTests filter suite client supported (List.range suite.count)
  notify (.suiteFinished suite.name)
  return {
    outcomes
    supported := suite.features.filter (supported.contains ·)
    unsupported := suite.features.filter (!supported.contains ·) }

/-- Runs a part from a client's first state. -/
def start {α : Type} (part : RunM τ α) (client : τ) : Except Error α × RunState τ :=
  part.run.run ⟨client, #[], #[]⟩

end Run

end ChainConformance
