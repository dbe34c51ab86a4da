import CallChain.Plan

/-!
# The contract of a plan

From outside, a plan takes an object with the parameters that its first step leaves open and gives
the response of its last step.

* `ContractError`: why a plan has no contract.
* `Plan.inputSchema`, `Plan.outputSchema`, `Plan.contract`.
-/

set_option autoImplicit false

namespace CallChain

/-- **Why a plan has no contract.** -/
inductive ContractError where
  | emptyPlan
  | noSuccessResponse (node api : String)
deriving DecidableEq, Repr

namespace ContractError

/-- The wording of an error. -/
def message : ContractError → String
  | .emptyPlan => "plan has no steps"
  | .noSuccessResponse node api =>
    "node `" ++ node ++ "`: api `" ++ api ++ "` declares no 2xx response"

/-- The name of the kind of an error. -/
def kind : ContractError → String
  | .emptyPlan => "EmptyPlan"
  | .noSuccessResponse _ _ => "NoSuccessResponse"

/-- The node that an error is about. -/
def nodeId? : ContractError → Option String
  | .emptyPlan => none
  | .noSuccessResponse node _ => some node

end ContractError

namespace Plan

/-- The schema of the input that a first step needs: its free parameters, the required ones by
name in declared order. -/
def inputSchema (first : PlanStep) : Json :=
  let free := Graph.freeParameters first.api first.overrides
  let properties := Entries.ofPairs (free.map (fun p => (p.name, p.schema)))
  let required := (free.filter Parameter.isRequired).map (fun p => Json.str p.name)
  .obj (("properties", .obj properties)
    :: (if required.isEmpty then [] else [("required", .arr required)])
    ++ [("type", .str "object")])

/-- The schema of the output: the success response of the last step. -/
def outputSchema (last : PlanStep) : Except ContractError Json :=
  match last.api.successResponse? with
  | some (_, schema) => .ok schema
  | none => .error (.noSuccessResponse last.nodeId last.api.id)

/-- **The contract of a plan**: the schemas of its input and output. -/
def contract (p : Plan) : Except ContractError (Json × Json) :=
  match p.steps.head?, p.steps.getLast? with
  | some first, some last => (outputSchema last).map (fun out => (inputSchema first, out))
  | _, _ => .error .emptyPlan

end Plan

end CallChain
