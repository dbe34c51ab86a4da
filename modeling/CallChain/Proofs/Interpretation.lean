import CallChain.Tool.Request
import Mathlib.Data.Nat.Notation

/-!
# Running a graph as it stands

What a workflow means can be said without compiling it. `CallChain.Graph.Interprets` goes through
the graph itself: it starts at the only node that no edge leads to, makes the call that a node
stands for, and follows the edge out of the node, with the mappings of that edge and the answer that
came in; where no edge leads on, the last answer is the result.

The calls go through a caller with a state of its own, so an answer may depend on everything that
was asked before. The interpretation lists the requests in the order in which they are made.
-/

set_option autoImplicit false

namespace CallChain

/-! ### What a node asks for -/

/-- A mapping with its paths read, if both can be read. -/
def Mapping.parsed? (m : Mapping) : Option ParsedMapping :=
  match FieldPath.parse m.source, FieldPath.parse m.target with
  | .ok source, .ok target => some ⟨source, target⟩
  | _, _ => none

/-- **How a node is come to**: one starts there, or follows an edge from a node that answered. -/
inductive Arrival where
  | start
  | along (edge : Edge) (answer : Json)

namespace Arrival

/-- The mappings of the edge, in declared order. -/
def mappings? : Arrival → Option (List ParsedMapping)
  | .start => some []
  | .along edge _ => edge.mappings.mapM Mapping.parsed?

/-- The answer of the node before. -/
def answer? : Arrival → Option Json
  | .start => none
  | .along _ answer => some answer

end Arrival

/-- The call that a node stands for, with the definition of its operation and the mappings that
are brought along. -/
def Node.call (node : Node) (api : ApiDefinition) (mappings : List ParsedMapping) : ToolStep where
  nodeId := node.id
  apiId := api.id
  method := api.method
  path := api.path
  parameters := api.parameters
  overrides := node.overrides
  mappings := mappings

/-- **The request of a node**, or why it has none. Nothing is asked for when the operation is not
known or a mapping cannot be read. -/
def Node.request? (node : Node) (definition? : String → Option ApiDefinition) (input : Json)
    (step : ℕ) (arrival : Arrival) : Option (Except ToolError Request) := do
  let api ← definition? node.api
  let mappings ← arrival.mappings?
  return (node.call api mappings).request step input arrival.answer?

/-! ### The way through the graph -/

namespace Graph

/-- **The interpretation from a node on**: the number of the call, the node and how it is come to,
the state of the caller; then the requests in order, the result, and the state that the caller is
left in. -/
inductive RunsFrom (g : Graph) (definition? : String → Option ApiDefinition) {σ : Type}
    (call : Call (StateM σ)) (input : Json) :
    ℕ → Node → Arrival → σ → List Request → Except ToolError Json → σ → Prop
  /-- The request cannot be put together. -/
  | refused {step : ℕ} {node : Node} {arrival : Arrival} {s : σ} {e : ToolError}
      (hrequest : node.request? definition? input step arrival = some (.error e)) :
      RunsFrom g definition? call input step node arrival s [] (.error e) s
  /-- The call fails on the way. -/
  | lost {step : ℕ} {node : Node} {arrival : Arrival} {s s' : σ} {request : Request}
      {reason : String}
      (hrequest : node.request? definition? input step arrival = some (.ok request))
      (hcall : (call request).run s = (.error reason, s')) :
      RunsFrom g definition? call input step node arrival s [request]
        (.error (.transport step reason)) s'
  /-- The answer is no success. -/
  | failed {step : ℕ} {node : Node} {arrival : Arrival} {s s' : σ} {request : Request}
      {response : Response}
      (hrequest : node.request? definition? input step arrival = some (.ok request))
      (hcall : (call request).run s = (.ok response, s')) (hfailed : response.isSuccess = false) :
      RunsFrom g definition? call input step node arrival s [request]
        (.error (.stepFailed step response.status)) s'
  /-- The answer is a success, and no edge leads on. -/
  | last {step : ℕ} {node : Node} {arrival : Arrival} {s s' : σ} {request : Request}
      {response : Response}
      (hrequest : node.request? definition? input step arrival = some (.ok request))
      (hcall : (call request).run s = (.ok response, s')) (hsuccess : response.isSuccess = true)
      (hlast : ∀ e ∈ g.edges, e.source ≠ node.id) :
      RunsFrom g definition? call input step node arrival s [request] (.ok response.body) s'
  /-- The answer is a success, and an edge leads on. -/
  | next {step : ℕ} {node : Node} {arrival : Arrival} {s s' s'' : σ} {request : Request}
      {response : Response} {e : Edge} {node' : Node} {requests : List Request}
      {result : Except ToolError Json}
      (hrequest : node.request? definition? input step arrival = some (.ok request))
      (hcall : (call request).run s = (.ok response, s')) (hsuccess : response.isSuccess = true)
      (hedge : e ∈ g.edges) (hsource : e.source = node.id)
      (hnode : node' ∈ g.nodes) (htarget : node'.id = e.target)
      (hrest : RunsFrom g definition? call input (step + 1) node' (.along e response.body) s'
        requests result s'') :
      RunsFrom g definition? call input step node arrival s (request :: requests) result s''

/-- **The interpretation of a graph**: it starts at the only node that no edge leads to. -/
def Interprets (g : Graph) (definition? : String → Option ApiDefinition) {σ : Type}
    (call : Call (StateM σ)) (input : Json) (s : σ) (requests : List Request)
    (result : Except ToolError Json) (s' : σ) : Prop :=
  ∃ start ∈ g.nodes, (∀ node ∈ g.nodes, g.incoming node.id = [] ↔ node = start) ∧
    g.RunsFrom definition? call input 0 start .start s requests result s'

end Graph

end CallChain
