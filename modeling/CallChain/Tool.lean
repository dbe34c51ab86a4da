import CallChain.Plan
import CallChain.Uuid

/-!
# Tools

A tool is a plan in a form that can be stored and run on its own: a name, a contract and the calls
to make.

* `ToolStep`, `Tool`.
* `Metadata`: the part of a tool that may be reworded.
* `Tool.callSequence`: what a tool calls, in order.
-/

set_option autoImplicit false

namespace CallChain

/-- One call of a tool. -/
structure ToolStep where
  nodeId : String
  apiId : String
  method : Method
  path : String
  parameters : List Parameter
  overrides : Members := []
  mappings : List ParsedMapping := []
deriving Inhabited

/-- **A tool.** -/
structure Tool where
  id : Uuid
  name : String
  description : String
  inputSchema : Json
  outputSchema : Json
  steps : List ToolStep
deriving Inhabited

/-- What a tool is called and what it says about itself. -/
structure Metadata where
  name : String
  description : String
deriving DecidableEq, Repr, Inhabited

namespace Tool

/-- The metadata of a tool. -/
def metadata (t : Tool) : Metadata := ⟨t.name, t.description⟩

/-- Method and path template of every call, in order. -/
def callSequence (t : Tool) : List (Method × String) := t.steps.map (fun s => (s.method, s.path))

end Tool

end CallChain
