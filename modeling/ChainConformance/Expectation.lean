/-!
# Expectations, outcomes and verdicts

A test has an expectation: a client must accept, must reject, or should do one of them. A run gives
an outcome. `Expectation.judge` compares the two; a deviation counts as a failure only if the
expectation is hard.
-/

namespace ChainConformance

/-- What a correct client does with a test. -/
inductive Expectation where
  /-- Must accept. -/
  | pass
  /-- Must reject. -/
  | fail
  /-- Should accept; rejecting is a warning. -/
  | softPass
  /-- Should reject; accepting is a warning. -/
  | softFail
  deriving DecidableEq, Repr

/-- What a client did with a test; a test that was not run is skipped. -/
inductive Outcome where
  | accepted
  | rejected
  | skipped
  deriving DecidableEq, Repr

/-- How an outcome compares with an expectation. -/
inductive Verdict where
  | pass
  | warning
  | falsePositive
  | falseNegative
  | skipped
  deriving DecidableEq, Repr

namespace Expectation

def name : Expectation → String
  | .pass => "PASS"
  | .fail => "FAIL"
  | .softPass => "SOFT_PASS"
  | .softFail => "SOFT_FAIL"

def all : List Expectation := [.pass, .fail, .softPass, .softFail]

def ofName? (s : String) : Option Expectation := all.find? (·.name = s)

/-- Whether accepting is the preferred outcome. -/
def prefersAccept : Expectation → Bool
  | .pass | .softPass => true
  | .fail | .softFail => false

/-- Whether a deviation is only a warning. -/
def isSoft : Expectation → Bool
  | .softPass | .softFail => true
  | .pass | .fail => false

/-- The verdict on an outcome. -/
def judge (expected : Expectation) : Outcome → Verdict
  | .skipped => .skipped
  | .accepted =>
    if expected.prefersAccept then .pass else if expected.isSoft then .warning else .falsePositive
  | .rejected =>
    if !expected.prefersAccept then .pass else if expected.isSoft then .warning else .falseNegative

/-- Whether an outcome of a client that was asked contradicts a hard expectation. -/
def contradicts (expected : Expectation) (outcome : Outcome) : Bool :=
  match expected with
  | .pass => outcome ≠ .accepted
  | .fail => outcome ≠ .rejected
  | .softPass | .softFail => false

end Expectation

namespace Outcome

def name : Outcome → String
  | .accepted => "ACCEPTED"
  | .rejected => "REJECTED"
  | .skipped => "SKIPPED"

/-- The capitalised word that messages use. -/
def word : Outcome → String
  | .accepted => "Accepted"
  | .rejected => "Rejected"
  | .skipped => "Skipped"

def all : List Outcome := [.accepted, .rejected, .skipped]

def ofName? (s : String) : Option Outcome := all.find? (·.name = s)

/-- The outcome of a client that answered. -/
def ofAnswer (accepted : Bool) : Outcome := if accepted then .accepted else .rejected

end Outcome

def Verdict.name : Verdict → String
  | .pass => "PASS"
  | .warning => "WARNING"
  | .falsePositive => "FALSE_POSITIVE"
  | .falseNegative => "FALSE_NEGATIVE"
  | .skipped => "SKIPPED"

end ChainConformance
