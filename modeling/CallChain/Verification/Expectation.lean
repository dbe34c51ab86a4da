import CallChain.Json.Text
import CallChain.Predicate

/-!
# Expectations

What a test case asks of a tool: an output, a part of an output, a condition on it, or a step that
fails.

* `Expectation`, `Expectation.check`: an expectation and what it says to an output.
* `Json.isWithin`: whether a value is a part of another one.
-/

set_option autoImplicit false

namespace CallChain

/-- **An expectation.** -/
inductive Expectation where
  | equals (value : Json)
  | subset (value : Json)
  | predicate (expression : String)
  | stepFailure (step : UInt64) (status : UInt16)
deriving Inhabited

mutual

/-- **Whether a value is a part of another one**: all members of an object are there, at every
depth; anything else is equal. -/
def Json.isWithin : Json → Json → Bool
  | .obj wanted, .obj found => membersWithin wanted found
  | wanted, found => wanted.same found

/-- Whether all members are there. -/
def Json.membersWithin : List (String × Json) → Members → Bool
  | [], _ => true
  | (k, wanted) :: rest, found =>
    (match Entries.get? found k with
      | some j => isWithin wanted j
      | none => false) && membersWithin rest found

end

/-- **Why an output is not what was expected.** -/
inductive Mismatch where
  | notEqual (expected found : Json)
  | notWithin (expected found : Json)
  | predicateFalse (expression : String)
  | notBoolean (expression : String) (value : Predicate.Value)
  | notEvaluated (expression : String) (fault : Predicate.Fault)
  | noFailure (step : UInt64) (status : UInt16)

/-- The wording of a mismatch. -/
def Mismatch.message : Mismatch → String
  | .notEqual expected found => "expected " ++ expected.compact ++ ", got " ++ found.compact
  | .notWithin expected found => expected.compact ++ " is not contained in " ++ found.compact
  | .predicateFalse e => "predicate `" ++ e ++ "` is false"
  | .notBoolean e v => "predicate `" ++ e ++ "` evaluated to " ++ v.shown ++ ", not a boolean"
  | .notEvaluated e fault =>
    "predicate `" ++ e ++ "` could not be evaluated: " ++ fault.message
  | .noFailure step status =>
    "expected step " ++ toString step.toNat ++ " to fail with " ++ toString status.toNat
      ++ ", but the tool succeeded"

namespace Expectation

/-- **What an expectation says to an output**: nothing, or why it is not met. -/
def check (e : Expectation) (output : Json) : Except Mismatch Unit :=
  match e with
  | .equals value => if value.same output then .ok () else .error (.notEqual value output)
  | .subset value => if value.isWithin output then .ok () else .error (.notWithin value output)
  | .predicate expression =>
    match Predicate.evaluate expression output with
    | .ok (.bool true) => .ok ()
    | .ok (.bool false) => .error (.predicateFalse expression)
    | .ok v => .error (.notBoolean expression v)
    | .error fault => .error (.notEvaluated expression fault)
  | .stepFailure step status => .error (.noFailure step status)

/-- Whether the failure of a step is just what was expected. -/
def expectsFailure (e : Expectation) (step : Nat) (status : UInt16) : Bool :=
  match e with
  | .stepFailure s c => s.toNat == step && c == status
  | _ => false

end Expectation

end CallChain
