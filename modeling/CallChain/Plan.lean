import CallChain.Api
import CallChain.Graph
import CallChain.Path.Parser
import CallChain.Path.Access
import CallChain.Schema.Types

/-!
# Plans

A plan is a chain whose names have been looked up: every step has the definition of its operation,
and its mappings are paths that lead somewhere in the declared schemas.

* `ParsedMapping`, `PlanStep`, `Plan`.
* `PlanError`, `MappingFault`: why a chain has no plan.
* `Graph.plan`: the plan of a graph along an order of its nodes.
-/

set_option autoImplicit false

namespace CallChain

/-- A mapping with its paths read. -/
structure ParsedMapping where
  source : FieldPath
  target : FieldPath
deriving DecidableEq, Repr, Inhabited

/-- One call of a plan. -/
structure PlanStep where
  nodeId : String
  api : ApiDefinition
  overrides : Members
  /-- Mappings from the response of the step before; the first step has none. -/
  mappings : List ParsedMapping
deriving Inhabited

/-- **A plan**: the calls of a graph in order. -/
structure Plan where
  graphId : String
  graphName : String
  description : Option String
  steps : List PlanStep
deriving Inhabited

/-! ### Errors -/

/-- **What is wrong with a mapping.** -/
inductive MappingFault where
  | sourceNotPreceding (source : String)
  | badSyntax (error : PathError)
  | noSuccessResponse (api : String)
  | unresolved (error : ResolveError)
  | targetStartsWithIndex
  | unknownParameter (api parameter : String)
  | nestedOutsideBody
  | indexTooLarge (index : Nat)
deriving DecidableEq, Repr

/-- The greatest index that a mapping may write to. -/
def maxTargetIndex : Nat := 255

/-- The wording of a fault. -/
def MappingFault.message : MappingFault → String
  | .sourceNotPreceding source => "edge source `" ++ source ++ "` is not the preceding step"
  | .badSyntax e => e.message
  | .noSuccessResponse api => "api `" ++ api ++ "` declares no 2xx response"
  | .unresolved e => e.message
  | .targetStartsWithIndex => "target must start with a parameter name"
  | .unknownParameter api parameter =>
    "api `" ++ api ++ "` declares no parameter `" ++ parameter ++ "`"
  | .nestedOutsideBody => "only body parameters accept nested targets"
  | .indexTooLarge index =>
    "index " ++ toString index ++ " exceeds the largest writable index "
      ++ toString maxTargetIndex

/-- **Why a chain has no plan.** -/
inductive PlanError where
  | unknownNode (node : String)
  | unknownApi (node api : String)
  | invalidMappingPath (node path : String) (fault : MappingFault)
  | typeMismatch (node source target found expected : String)
  | unknownParameter (node parameter : String)
  | unsatisfiedParameter (node parameter : String)
  | undeclaredPlaceholder (node api placeholder : String)
deriving DecidableEq, Repr

namespace PlanError

/-- The wording of an error. -/
def message : PlanError → String
  | .unknownNode node => "node `" ++ node ++ "` is not part of the graph"
  | .unknownApi node api => "node `" ++ node ++ "` references unknown api `" ++ api ++ "`"
  | .invalidMappingPath node path fault =>
    "node `" ++ node ++ "`: invalid mapping path `" ++ path ++ "`: " ++ fault.message
  | .typeMismatch node source target found expected =>
    "node `" ++ node ++ "`: `" ++ source ++ "` (" ++ found ++ ") cannot be mapped to `"
      ++ target ++ "` (" ++ expected ++ ")"
  | .unknownParameter node parameter =>
    "node `" ++ node ++ "` overrides `" ++ parameter ++ "`, which its api does not declare"
  | .unsatisfiedParameter node parameter =>
    "node `" ++ node ++ "`: required parameter `" ++ parameter
      ++ "` has no override, mapping or tool input"
  | .undeclaredPlaceholder node api placeholder =>
    "node `" ++ node ++ "`: path of api `" ++ api ++ "` uses placeholder `" ++ placeholder
      ++ "`, which is not a declared path parameter"

/-- The name of the kind of an error. -/
def kind : PlanError → String
  | .unknownNode _ => "UnknownNode"
  | .unknownApi _ _ => "UnknownApi"
  | .invalidMappingPath _ _ _ => "InvalidMappingPath"
  | .typeMismatch _ _ _ _ _ => "TypeMismatch"
  | .unknownParameter _ _ => "UnknownParameter"
  | .unsatisfiedParameter _ _ => "UnsatisfiedParameter"
  | .undeclaredPlaceholder _ _ _ => "UndeclaredPlaceholder"

/-- The node that an error is about. -/
def nodeId : PlanError → String
  | .unknownNode node => node
  | .unknownApi node _ => node
  | .invalidMappingPath node _ _ => node
  | .typeMismatch node _ _ _ _ => node
  | .unknownParameter node _ => node
  | .unsatisfiedParameter node _ => node
  | .undeclaredPlaceholder node _ _ => node

end PlanError

/-! ### Placeholders -/

theorem length_after_lt {c : Char} {cs rest : List Char} {p : Char → Bool}
    (h : cs.dropWhile p = c :: rest) : rest.length < cs.length := by
  have hle := (List.dropWhile_suffix p (l := cs)).length_le
  rw [h] at hle
  simp only [List.length_cons] at hle
  omega

/-- **The names between braces** in a path template, each brace with the next closing one; a brace
that is never closed ends the search. -/
def placeholders (template : List Char) : List String :=
  match _hopen : template.dropWhile (· != '\x7b') with
  | [] => []
  | _ :: inside =>
    match _hclose : inside.dropWhile (· != '\x7d') with
    | [] => []
    | _ :: rest => String.ofList (inside.takeWhile (· != '\x7d')) :: placeholders rest
termination_by template.length
decreasing_by
  exact Nat.lt_trans (length_after_lt _hclose) (length_after_lt _hopen)

/-- Whether the parameter of a name is one of the path. -/
def ApiDefinition.hasPathParameter (api : ApiDefinition) (name : String) : Bool :=
  (api.parameter? name).any (·.location == .path)

namespace Graph

/-- Every placeholder must be a declared path parameter. -/
def checkPlaceholders (node : Node) (api : ApiDefinition) : Except PlanError Unit :=
  match (placeholders api.path.toList).find? (fun name => !api.hasPathParameter name) with
  | some name => .error (.undeclaredPlaceholder node.id api.id name)
  | none => .ok ()

/-- Every override must name a declared parameter. -/
def checkOverrides (node : Node) (api : ApiDefinition) : Except PlanError Unit :=
  match node.overrides.names.find? (fun name => (api.parameter? name).isNone) with
  | some name => .error (.unknownParameter node.id name)
  | none => .ok ()

/-! ### Mappings -/

/-- The first index of a path that is too large to write to. -/
def firstLargeIndex : FieldPath → Option Nat
  | [] => none
  | .index i :: rest => if maxTargetIndex < i then some i else firstLargeIndex rest
  | _ :: rest => firstLargeIndex rest

/-- Reads one mapping of an edge from the step before and checks where its paths lead. -/
def resolveMapping (previous : PlanStep) (node : Node) (api : ApiDefinition) (edge : Edge)
    (m : Mapping) : Except PlanError ParsedMapping := do
  let invalid {α : Type} (path : String) (fault : MappingFault) : Except PlanError α :=
    .error (.invalidMappingPath node.id path fault)
  if edge.source != previous.nodeId then invalid m.source (.sourceNotPreceding edge.source) else
  match FieldPath.parse m.source with
  | .error e => invalid m.source (.badSyntax e)
  | .ok source =>
  match FieldPath.parse m.target with
  | .error e => invalid m.target (.badSyntax e)
  | .ok target =>
  match previous.api.successResponse? with
  | none => invalid m.source (.noSuccessResponse previous.api.id)
  | some (_, response) =>
  match source.resolve response with
  | .error e => invalid m.source (.unresolved e)
  | .ok sourceSchema =>
  match target.headField? with
  | none => invalid m.target .targetStartsWithIndex
  | some name =>
  match api.parameter? name with
  | none => invalid m.target (.unknownParameter api.id name)
  | some parameter =>
  let nested := target.tail
  if !nested.isEmpty && parameter.location != .body then
    invalid m.target .nestedOutsideBody
  else
  match firstLargeIndex nested with
  | some i => invalid m.target (.indexTooLarge i)
  | none =>
  match nested.resolve parameter.schema with
  | .error e => invalid m.target (.unresolved e)
  | .ok targetSchema =>
  if Schema.isCompatible sourceSchema targetSchema then .ok ⟨source, target⟩
  else .error (.typeMismatch node.id m.source m.target
    (Schema.describeTypes sourceSchema) (Schema.describeTypes targetSchema))

/-- Reads mappings in order; the first fault decides. -/
def resolveMappings (previous : PlanStep) (node : Node) (api : ApiDefinition) :
    List (Edge × Mapping) → Except PlanError (List ParsedMapping)
  | [] => .ok []
  | (edge, m) :: rest => do
    let first ← resolveMapping previous node api edge m
    let more ← resolveMappings previous node api rest
    return first :: more

/-- The mappings into a node with their edges, in declared order. -/
def mappingsInto (g : Graph) (id : String) : List (Edge × Mapping) :=
  (g.incoming id).flatMap (fun edge => edge.mappings.map (fun m => (edge, m)))

/-- Every required parameter needs an override, a mapping or a field of the tool's input. -/
def checkSatisfied (node : Node) (api : ApiDefinition) (mappings : List ParsedMapping)
    (inputFields : List String) : Except PlanError Unit :=
  let given (name : String) : Bool :=
    mappings.any (fun m => m.target.headField? == some name)
      || node.overrides.has name || inputFields.contains name
  match (api.parameters.filter Parameter.isRequired).find? (fun p => !given p.name) with
  | some p => .error (.unsatisfiedParameter node.id p.name)
  | none => .ok ()

/-! ### Steps -/

/-- The parameters of a first step that its input has to bring. -/
def freeParameters (api : ApiDefinition) (overrides : Members) : List Parameter :=
  api.parameters.filter (fun p => !overrides.has p.name)

/-- Plans the nodes of an order one after another. `previous?` is the step before, `inputFields`
are the names of the tool's input. -/
def planFrom (g : Graph) (definition? : String → Option ApiDefinition) :
    Option PlanStep → List String → List String → Except PlanError (List PlanStep)
  | _, _, [] => .ok []
  | previous?, inputFields, id :: rest => do
    let node ← match g.node? id with
      | some node => Except.ok node
      | none => .error (.unknownNode id)
    let api ← match definition? node.api with
      | some api => Except.ok api
      | none => .error (.unknownApi node.id node.api)
    checkOverrides node api
    checkPlaceholders node api
    match previous? with
    | none =>
      let step : PlanStep := ⟨node.id, api, node.overrides, []⟩
      let fields := (freeParameters api node.overrides).map (·.name)
      let more ← planFrom g definition? (some step) fields rest
      return step :: more
    | some previous =>
      let mappings ← resolveMappings previous node api (g.mappingsInto node.id)
      checkSatisfied node api mappings inputFields
      let step : PlanStep := ⟨node.id, api, node.overrides, mappings⟩
      let more ← planFrom g definition? (some step) inputFields rest
      return step :: more

/-- **The plan of a graph** along an order of its nodes, with the definitions that `definition?`
knows. -/
def plan (g : Graph) (definition? : String → Option ApiDefinition) (order : List String) :
    Except PlanError Plan := do
  let steps ← planFrom g definition? none [] order
  return ⟨g.id, g.name, g.description, steps⟩

end Graph

end CallChain
