import CallChain.Json

/-!
# Workflow graphs

A workflow names operations to call and what flows between them: a node is a call, an edge moves
parts of one response into the parameters of the next call.

* `Mapping`, `Edge`, `Node`, `Graph`.
* `Graph.node?`, `Graph.incoming`.
-/

set_option autoImplicit false

namespace CallChain

/-- Moves a part of a response into a parameter; both are paths in written form. -/
structure Mapping where
  source : String
  target : String
deriving DecidableEq, Repr, Inhabited

/-- A call of an operation, with fixed values for some of its parameters. -/
structure Node where
  id : String
  api : String
  /-- Values by parameter name, in the order of the names. -/
  overrides : Members := []
deriving Inhabited

/-- A connection from one call to another. -/
structure Edge where
  source : String
  target : String
  mappings : List Mapping := []
deriving DecidableEq, Repr, Inhabited

/-- **A workflow graph.** -/
structure Graph where
  id : String
  name : String
  description : Option String := none
  nodes : List Node := []
  edges : List Edge := []
deriving Inhabited

namespace Graph

/-- The first node of an id. -/
def node? (g : Graph) (id : String) : Option Node := g.nodes.find? (·.id == id)

/-- The edges into a node, in declared order. -/
def incoming (g : Graph) (id : String) : List Edge := g.edges.filter (·.target == id)

end Graph

end CallChain
