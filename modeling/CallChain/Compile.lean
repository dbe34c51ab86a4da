import CallChain.Catalog
import CallChain.Graph.Chain
import CallChain.Plan.Contract
import CallChain.Tool.Enhancement
import CallChain.Tool.Synthesis

/-!
# Compiling graphs

A graph becomes a tool: its order is found, the definitions it names are looked up, then the
calls are planned, the contract is read off and the tool is put together.

* `CompileError`: why there is no tool, with `CompileError.report`.
* `Graph.compileWith`: against definitions at hand.
* `fetch`: looks up all definitions that a graph names; look-ups may complete in any order.
* `Graph.compile`: against a catalog, with an enhancer at the end.
-/

set_option autoImplicit false

namespace CallChain

/-! ### Errors -/

/-- **Why there is no tool.** -/
inductive CompileError where
  | graph (error : GraphError)
  | plan (error : PlanError)
  | contract (error : ContractError)
  | catalog (error : CatalogError)

namespace CompileError

/-- The wording of an error. -/
def message : CompileError → String
  | .graph e => e.message
  | .plan e => e.message
  | .contract e => e.message
  | .catalog e => e.message

/-- The name of the kind of an error. -/
def kind : CompileError → String
  | .graph e => e.kind
  | .plan e => e.kind
  | .contract e => e.kind
  | .catalog _ => "CatalogUnavailable"

/-- The node that an error is about. -/
def nodeId? : CompileError → Option String
  | .graph e => e.nodeId?
  | .plan e => some e.nodeId
  | .contract e => e.nodeId?
  | .catalog _ => none

end CompileError

/-- What a client gets to see of an error. -/
structure ErrorReport where
  kind : String
  message : String
  nodeId? : Option String := none
deriving DecidableEq, Repr, Inhabited

/-- What a client gets to see of a compilation that failed. -/
def CompileError.report (e : CompileError) : ErrorReport := ⟨e.kind, e.message, e.nodeId?⟩

/-! ### Compiling -/

/-- How a compilation is done. -/
structure CompilerConfig where
  /-- Whether an enhancer is asked at the end. -/
  enhance : Bool := false
  /-- How many look-ups may be under way at a time. -/
  lookupConcurrency : UInt64 := 8
deriving DecidableEq, Repr, Inhabited

namespace Graph

/-- The tool of an order of nodes. -/
def assemble (g : Graph) (definition? : String → Option ApiDefinition) (order : List String)
    (id : Uuid) : Except CompileError Tool := do
  let plan ← (g.plan definition? order).mapError .plan
  let (input, output) ← plan.contract.mapError .contract
  return plan.toTool id input output

/-- **Compiles a graph** against definitions at hand. -/
def compileWith (g : Graph) (definition? : String → Option ApiDefinition) (id : Uuid) :
    Except CompileError Tool := do
  let order ← g.order.mapError .graph
  g.assemble definition? order id

/-- The ids of the operations that a graph names, each once, in increasing order. -/
def apiIds (g : Graph) : List String :=
  (Entries.ofPairs (g.nodes.map (fun n => (n.api, ())))).names

end Graph

/-- **Looks ids up**, in the order in which the look-ups complete. The first failure decides; ids
that are not known are left out. -/
def fetch (lookup : Lookup) : List String → Except CatalogError (Entries ApiDefinition)
  | [] => .ok []
  | id :: rest =>
    match lookup id with
    | .error e => .error e
    | .ok found? => do
      let definitions ← fetch lookup rest
      return match found? with
        | some api => Entries.insert id api definitions
        | none => definitions

namespace Graph

/-- **Compiles a graph** against a catalog. `completed` lists the ids to look up in the order in
which the look-ups complete. -/
def compile (g : Graph) (config : CompilerConfig) (enhancer? : Option Enhancer) (lookup : Lookup)
    (completed : List String) (id : Uuid) : Except CompileError Tool := do
  let order ← g.order.mapError .graph
  let definitions ← (fetch lookup completed).mapError .catalog
  let tool ← g.assemble (Entries.get? definitions) order id
  return match enhancer?, config.enhance with
    | some enhancer, true => tool.enhance enhancer
    | _, _ => tool

end Graph

/-! ### Requests -/

/-- **A request to compile**: a graph and definitions by name. -/
structure CompileRequest where
  graph : Graph
  apis : Entries ApiDefinition := []
deriving Inhabited

namespace CompileRequest

/-- The catalog of a request; the names win over the ids in the definitions. -/
def catalog (r : CompileRequest) : Catalog :=
  Catalog.ofList (r.apis.map (fun (id, api) => { api with id := id }))

/-- Compiles a request against its own catalog. -/
def compile (r : CompileRequest) (config : CompilerConfig) (enhancer? : Option Enhancer)
    (id : Uuid) : Except CompileError Tool :=
  r.graph.compile config enhancer? r.catalog.lookup r.graph.apiIds id

/-- Compiles a request against its definitions as they are. -/
def compileDirectly (r : CompileRequest) (id : Uuid) : Except CompileError Tool :=
  r.graph.compileWith (Entries.get? r.apis) id

end CompileRequest

/-- The answer to a request to compile. -/
inductive CompileResponse where
  | tool (tool : Tool)
  | error (report : ErrorReport)

/-- The answer that a compilation leads to. -/
def CompileResponse.ofResult : Except CompileError Tool → CompileResponse
  | .ok t => .tool t
  | .error e => .error e.report

end CallChain
