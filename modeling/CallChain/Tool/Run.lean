import CallChain.Tool.Request

/-!
# Running tools

A tool runs by making its calls one after another, each with what the call before answered. It
stops at the first answer that is no success.

* `Tool.runFrom`: the calls from a step on.
* `Tool.invoke`: a whole run, with whatever calls do.
* `Tool.acceptsOutput`: whether an output fits the contract.
-/

set_option autoImplicit false

namespace CallChain

namespace Tool

/-- Makes calls. `step` is the number of the first of them, `previous?` the body that the call
before answered with. -/
def runFrom {m : Type → Type} [Monad m] (call : Call m) (input : Json) :
    Nat → Option Json → List ToolStep → m (Except ToolError Json)
  | _, previous?, [] => pure (.ok (previous?.getD .null))
  | step, previous?, s :: rest =>
    match s.request step input previous? with
    | .error e => pure (.error e)
    | .ok request => do
      match ← call request with
      | .error reason => pure (.error (.transport step reason))
      | .ok response =>
        if response.isSuccess then runFrom call input (step + 1) (some response.body) rest
        else pure (.error (.stepFailed step response.status))

/-- **A run of a tool.** An input that does not fit is refused before any call. -/
def invoke {m : Type → Type} [Monad m] (t : Tool) (call : Call m) (input : Json) :
    m (Except ToolError Json) :=
  match Schema.conforms t.inputSchema input with
  | .error reason => pure (.error (.invalidInput reason))
  | .ok _ => runFrom call input 0 none t.steps

/-- Whether an output fits the contract; a run does not ask. -/
def acceptsOutput (t : Tool) (output : Json) : Bool := Schema.isConforming t.outputSchema output

end Tool

end CallChain
