import CallChain.Graph
import CallChain.Graph.Peeling

/-!
# Chains

Only sequential workflows can be compiled: all calls in one row, each connected to the next.
`Graph.order` finds that row or says what stands against it.

* `GraphError`: what stands against it, with `GraphError.message` and `GraphError.nodeId?`.
* `Graph.order`: the ids of the nodes in the order of their calls.
-/

set_option autoImplicit false

namespace CallChain

/-- **Why a graph is no chain.** -/
inductive GraphError where
  | noStartNode
  | noEndNode
  | multipleStartNodes (nodes : List String)
  | multipleEndNodes (nodes : List String)
  | disconnectedNode (node : String)
  | cycleDetected (nodes : List String)
  | branchingNode (node : String) (incoming outgoing : Nat)
  | duplicateNode (node : String)
  | unknownEdgeEndpoint (source target missing : String)
deriving DecidableEq, Repr

namespace GraphError

/-- The wording of an error. -/
def message : GraphError → String
  | .noStartNode => "graph has no start node (every node has an incoming edge)"
  | .noEndNode => "graph has no end node (every node has an outgoing edge)"
  | .multipleStartNodes nodes => "graph has multiple start nodes: " ++ ", ".intercalate nodes
  | .multipleEndNodes nodes => "graph has multiple end nodes: " ++ ", ".intercalate nodes
  | .disconnectedNode node => "node `" ++ node ++ "` is not reachable from the start node"
  | .cycleDetected nodes => "cycle detected through: " ++ ", ".intercalate nodes
  | .branchingNode node incoming outgoing =>
    "node `" ++ node ++ "` branches (" ++ toString incoming ++ " incoming, "
      ++ toString outgoing ++ " outgoing); only sequential graphs are supported"
  | .duplicateNode node => "duplicate node id `" ++ node ++ "`"
  | .unknownEdgeEndpoint source target missing =>
    "edge `" ++ source ++ "` -> `" ++ target ++ "` references unknown node `" ++ missing ++ "`"

/-- The name of the kind of an error. -/
def kind : GraphError → String
  | .noStartNode => "NoStartNode"
  | .noEndNode => "NoEndNode"
  | .multipleStartNodes _ => "MultipleStartNodes"
  | .multipleEndNodes _ => "MultipleEndNodes"
  | .disconnectedNode _ => "DisconnectedNode"
  | .cycleDetected _ => "CycleDetected"
  | .branchingNode _ _ _ => "BranchingNode"
  | .duplicateNode _ => "DuplicateNode"
  | .unknownEdgeEndpoint _ _ _ => "UnknownEdgeEndpoint"

/-- The node that an error is about, or the first of them. -/
def nodeId? : GraphError → Option String
  | .noStartNode => none
  | .noEndNode => none
  | .multipleStartNodes nodes => nodes.head?
  | .multipleEndNodes nodes => nodes.head?
  | .cycleDetected nodes => nodes.head?
  | .disconnectedNode node => some node
  | .branchingNode node _ _ => some node
  | .duplicateNode node => some node
  | .unknownEdgeEndpoint _ _ missing => some missing

end GraphError

/-- The first element that occurs earlier in a list already. -/
def firstRepeat : List String → List String → Option String
  | _, [] => none
  | seen, a :: rest => if seen.contains a then some a else firstRepeat (a :: seen) rest

namespace Graph

/-- The ids of the nodes, in declared order. -/
def ids (g : Graph) : List String := g.nodes.map (·.id)

/-- The number of a node. -/
def number? (ids : List String) (id : String) : Option Nat := ids.findIdx? (· == id)

/-- The edges as pairs of node numbers; the source of an edge is looked up before its target. -/
def numberedEdges (ids : List String) : List Edge → Except GraphError (List (Nat × Nat))
  | [] => .ok []
  | e :: rest =>
    match number? ids e.source with
    | none => .error (.unknownEdgeEndpoint e.source e.target e.source)
    | some u =>
      match number? ids e.target with
      | none => .error (.unknownEdgeEndpoint e.source e.target e.target)
      | some v => (numberedEdges ids rest).map ((u, v) :: ·)

/-- The id of a node number. -/
def nameOf (ids : List String) (u : Nat) : String := ids[u]?.getD ""

/-- Follows first successors from a node on; a node that is met again is on a cycle. -/
def walk (ids : List String) (a : Adjacency) : Nat → List Nat → Nat → Except GraphError (List Nat)
  | 0, visited, _ => .ok visited.reverse
  | n + 1, visited, u =>
    if visited.contains u then .error (.cycleDetected [nameOf ids u])
    else
      match a.after u with
      | [] => .ok (u :: visited).reverse
      | v :: _ => walk ids a n (u :: visited) v

/-- The only start and the only end of a graph that does not branch. -/
def theStart (ids : List String) (a : Adjacency) : Except GraphError Nat :=
  let numbers := List.range a.size
  match numbers.filter (fun u => (a.before u).isEmpty) with
  | [] => .error .noStartNode
  | [start] =>
    match numbers.filter (fun u => (a.after u).isEmpty) with
    | [] => .error .noEndNode
    | [_] => .ok start
    | several => .error (.multipleEndNodes (several.map (nameOf ids)))
  | several => .error (.multipleStartNodes (several.map (nameOf ids)))

/-- The order of a graph whose edges all have ends. -/
def orderOf (ids : List String) (a : Adjacency) : Except GraphError (List String) := do
  match a.core with
  | u :: more => .error (.cycleDetected ((u :: more).map (nameOf ids)))
  | [] =>
    let branches (u : Nat) : Bool := 1 < (a.before u).length || 1 < (a.after u).length
    match (List.range a.size).find? branches with
    | some u => .error (.branchingNode (nameOf ids u) (a.before u).length (a.after u).length)
    | none =>
      let start ← theStart ids a
      let visited ← walk ids a (a.size + 1) [] start
      match (List.range a.size).find? (fun u => !visited.contains u) with
      | some u => .error (.disconnectedNode (nameOf ids u))
      | none => .ok (visited.map (nameOf ids))

/-- **The ids of the nodes in the order of their calls**, if the graph is a chain. The checks come
in a fixed order: repeated ids, no nodes, unknown ends of edges, cycles, branches, several starts,
several ends, nodes that were not reached. -/
def order (g : Graph) : Except GraphError (List String) := do
  match firstRepeat [] g.ids with
  | some id => .error (.duplicateNode id)
  | none =>
    if g.nodes.isEmpty then .error .noStartNode
    else
      let edges ← numberedEdges g.ids g.edges
      orderOf g.ids (Adjacency.ofEdges g.nodes.length edges)

end Graph

end CallChain
