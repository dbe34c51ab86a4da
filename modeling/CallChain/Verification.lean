import CallChain.Tool.Run
import CallChain.Verification.Expectation

/-!
# Verdicts

A test case runs a tool once and compares what happened with what was expected.

* `TestCase`, `VerifierConfig`: what to run and how.
* `Outcome`: what happened in a run.
* `Failure`, `Verdict`, `judge`: what to make of it.
-/

set_option autoImplicit false

namespace CallChain

/-- **A test case.** -/
structure TestCase where
  input : Json := .obj []
  expected? : Option Expectation := none
deriving Inhabited

/-- How test cases are run. -/
structure VerifierConfig where
  /-- How many milliseconds a case may take. -/
  timeout : UInt64 := 60000
  /-- How many cases may run at a time; at least one may. -/
  maxParallel : UInt64 := 4
deriving DecidableEq, Repr, Inhabited

/-- **What happened in a run**, before anything is expected of it. -/
inductive Outcome where
  | completed (output : Json)
  | toolFailed (error : ToolError)
  | crashed (text : String)
  | timedOut

/-- The standing of a test case. -/
inductive Status where
  | passed
  | failed
  | timedOut
  | crashFailed
deriving DecidableEq, Repr, Inhabited

/-- The name of a standing. -/
def Status.text : Status → String
  | .passed => "passed"
  | .failed => "failed"
  | .timedOut => "timed_out"
  | .crashFailed => "crash_failed"

/-- **What kept a test case from passing.** -/
inductive Failure where
  | stepFailed (step : Nat) (status : UInt16)
  | mismatch (reason : String)
  | timedOut (timeout : UInt64)
  | crashed (text : String)
deriving DecidableEq, Repr

/-- **What came of a test case.** -/
structure Verdict where
  status : Status
  /-- How many milliseconds it took. -/
  elapsed : UInt64
  output? : Option Json := none
  failure? : Option Failure := none
deriving Inhabited

/-- **The verdict on an outcome.** The failure of a step passes if it was expected; any other error
of a tool counts as a crash. -/
def judge (outcome : Outcome) (expected? : Option Expectation) (timeout elapsed : UInt64) :
    Verdict :=
  match outcome with
  | .completed output =>
    let answer : Except Mismatch Unit :=
      match expected? with
      | some e => e.check output
      | none => .ok ()
    match answer with
    | .ok _ => { status := .passed, elapsed := elapsed, output? := some output }
    | .error mismatch =>
      { status := .failed
        elapsed := elapsed
        output? := some output
        failure? := some (.mismatch mismatch.message) }
  | .toolFailed (.stepFailed step status) =>
    if expected?.any (·.expectsFailure step status) then { status := .passed, elapsed := elapsed }
    else
      { status := .failed, elapsed := elapsed, failure? := some (.stepFailed step status) }
  | .toolFailed error =>
    { status := .crashFailed, elapsed := elapsed, failure? := some (.crashed error.message) }
  | .crashed text =>
    { status := .crashFailed, elapsed := elapsed, failure? := some (.crashed text) }
  | .timedOut => { status := .timedOut, elapsed := elapsed, failure? := some (.timedOut timeout) }

end CallChain
