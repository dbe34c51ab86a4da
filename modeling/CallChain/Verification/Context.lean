import CallChain.Service
import CallChain.Tool.Wire
import CallChain.Verification

/-!
# Isolated contexts

A tool under test runs in a context of its own: a directory with the text of the tool, from which
the tool is read again, and a state. A context is live until it is torn down or dropped.

* `ContextState`, `Context`: a context.
* `Context.provision`, `Context.run`, `Context.finish`: its life.
* `runCase`, `verify`: test cases, each in a context of its own.
-/

set_option autoImplicit false

namespace CallChain

/-- **The state of a context.** -/
inductive ContextState where
  | provisioning
  | running
  | passed
  | failed
  | timedOut
  | crashFailed
  | tornDown
deriving DecidableEq, Repr, Inhabited

/-- The state that a verdict leads to. -/
def Status.state : Status → ContextState
  | .passed => .passed
  | .failed => .failed
  | .timedOut => .timedOut
  | .crashFailed => .crashFailed

/-- **A context**: its state and the text of the tool, unless that was removed. -/
structure Context where
  state : ContextState
  artifact? : Option String
deriving Inhabited

/-- What a crash is called. -/
def crashText : Option String → String
  | some text => "tool panicked: " ++ text
  | none => "tool panicked"

namespace Context

/-- A new context with the text of a tool. -/
def provision (artifact : String) : Context := ⟨.provisioning, some artifact⟩

/-- The tool of a context, or why it cannot be had. -/
def tool (c : Context) : Except String Tool :=
  match c.artifact? with
  | none => .error "Failed to read tool artifact: No such file or directory (os error 2)"
  | some text =>
    match decodeText Tool.decoder text with
    | .ok t => .ok t
    | .error e => .error ("Failed to load tool artifact: " ++ e.placedMessage)

/-- What happened in a session in which a tool was run. -/
def outcomeOf (ended : Except Interruption (Except ToolError Json)) : Outcome :=
  match ended with
  | .ok (.ok output) => .completed output
  | .ok (.error e) => .toolFailed e
  | .error (.crashed text?) => .crashed (crashText text?)
  | .error .timedOut => .timedOut

/-- **Runs the tool of a context** against a service. A tool that cannot be read changes nothing. -/
def run (c : Context) (input : Json) (connection : Connection) (timeout : UInt64) :
    Outcome × Context :=
  match c.tool with
  | .error text => (.crashed text, c)
  | .ok t =>
    let session := t.invoke (connection (some timeout.toNat)) input
    (outcomeOf session.runFresh.1, { c with state := .running })

/-- Records what came of a run. -/
def finish (c : Context) (state : ContextState) : Context := { c with state := state }

end Context

/-! ### Test cases -/

/-- What running test cases takes: the services opened so far and the contexts that are live. -/
structure Tally where
  services : Nat := 0
  live : Nat := 0
deriving DecidableEq, Repr, Inhabited

namespace Tally

/-- One more service and one more context. -/
def enter (t : Tally) : Tally := ⟨t.services + 1, t.live + 1⟩

/-- One context less. -/
def leave (t : Tally) : Tally := { t with live := t.live - 1 }

end Tally

/-- Runs a test case in a context of its own, which is gone afterwards. -/
def runCase (artifact : String) (connection : Connection) (config : VerifierConfig)
    (case : TestCase) : StateM Tally Verdict := do
  modify Tally.enter
  let (outcome, context) := (Context.provision artifact).run case.input connection config.timeout
  let verdict := judge outcome case.expected? config.timeout 0
  let _ := context.finish verdict.status.state
  modify Tally.leave
  return verdict

/-- **The verdicts on test cases**, in the order of the cases. Each case meets the service afresh;
how many run at a time makes no difference. -/
def verify (t : Tool) (connection : Connection) (config : VerifierConfig)
    (cases : List TestCase) : StateM Tally (List Verdict) :=
  cases.mapM (runCase t.document.text connection config)

end CallChain
