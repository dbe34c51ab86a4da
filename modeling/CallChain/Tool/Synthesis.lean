import CallChain.Tool
import CallChain.Tool.Name
import CallChain.Text.Blank

/-!
# Tools from plans

* `ToolStep.ofPlanStep`: a call without what only planning needs.
* `describeSteps`: what a tool does, in words.
* `Plan.toTool`: the tool of a plan and its contract.
-/

set_option autoImplicit false

namespace CallChain

/-- A call of a plan as a call of a tool. -/
def ToolStep.ofPlanStep (s : PlanStep) : ToolStep where
  nodeId := s.nodeId
  apiId := s.api.id
  method := s.api.method
  path := s.api.path
  parameters := s.api.parameters
  overrides := s.overrides
  mappings := s.mappings

/-- A call in words. -/
def describeStep (s : PlanStep) : String :=
  s.api.method.text ++ " " ++ s.api.path ++
    match s.api.summary with
    | some summary => " (" ++ summary ++ ")"
    | none => ""

/-- The calls of a plan in words. -/
def describeSteps (steps : List PlanStep) : String :=
  match steps with
  | [s] => "Calls " ++ describeStep s ++ "."
  | _ =>
    "Calls " ++ toString steps.length ++ " APIs in sequence: "
      ++ " -> ".intercalate (steps.map describeStep) ++ "."

/-- **The tool of a plan** with the given contract and id. The name comes from the name of the
graph, or from its id when that gives none; a description that is missing or blank is replaced by
the calls in words. -/
def Plan.toTool (p : Plan) (id : Uuid) (inputSchema outputSchema : Json) : Tool where
  id := id
  name := if (toolName p.graphName).isEmpty then toolName p.graphId else toolName p.graphName
  description :=
    match p.description with
    | some d => if Text.isBlankText d then describeSteps p.steps else d
    | none => describeSteps p.steps
  inputSchema := inputSchema
  outputSchema := outputSchema
  steps := p.steps.map ToolStep.ofPlanStep

end CallChain
