import CallChain.Json

/-!
# Peeling a directed graph

Nodes without predecessors cannot lie on a cycle; once they are gone, others are left without
predecessors. What survives peeling from both sides are the nodes on cycles and on paths between
cycles.

A peeling counts for every node the neighbours that are still there and keeps the nodes whose count
has come to zero in a queue.

* `Adjacency`: nodes as numbers, with successors and predecessors, each as often as there are
  edges.
* `Peeling`, `Peeling.step`, `Peeling.run`: one pass in one direction.
* `Adjacency.core`: what survives both passes, in increasing order.
-/

set_option autoImplicit false

namespace CallChain

/-- **A directed multigraph** on the numbers below `size`. -/
structure Adjacency where
  size : Nat
  successors : Array (List Nat)
  predecessors : Array (List Nat)
deriving Inhabited

namespace Adjacency

/-- The multigraph of a list of edges. -/
def ofEdges (size : Nat) (edges : List (Nat × Nat)) : Adjacency where
  size := size
  successors := ((List.range size).map (fun u =>
    edges.filterMap (fun e => if e.1 = u then some e.2 else none))).toArray
  predecessors := ((List.range size).map (fun v =>
    edges.filterMap (fun e => if e.2 = v then some e.1 else none))).toArray

/-- The successors of a node. -/
def after (g : Adjacency) (u : Nat) : List Nat := g.successors[u]?.getD []

/-- The predecessors of a node. -/
def before (g : Adjacency) (u : Nat) : List Nat := g.predecessors[u]?.getD []

/-- The multigraph with its edges turned round. -/
def reverse (g : Adjacency) : Adjacency := ⟨g.size, g.predecessors, g.successors⟩

end Adjacency

/-- **A pass under way**: which nodes are gone, how many predecessors that are not gone each node
has, and the nodes to remove next. -/
structure Peeling where
  removed : Array Bool
  remaining : Array Nat
  queue : List Nat
deriving Inhabited

namespace Peeling

/-- Whether a node is gone. -/
def isRemoved (p : Peeling) (u : Nat) : Bool := p.removed[u]?.getD false

/-- The count of a node. -/
def count (p : Peeling) (u : Nat) : Nat := p.remaining[u]?.getD 0

/-- The start of a pass over what the given nodes leave over. -/
def start (g : Adjacency) (removed : Array Bool) : Peeling :=
  let gone (u : Nat) : Bool := removed[u]?.getD false
  let remaining := ((List.range g.size).map (fun u =>
    if gone u then 0 else ((g.before u).filter (fun p => !gone p)).length)).toArray
  { removed := removed
    remaining := remaining
    queue := (List.range g.size).filter (fun u => !gone u && remaining[u]?.getD 0 == 0) }

/-- Counts one predecessor of a node off; a node whose count comes to zero joins the queue. -/
def release (p : Peeling) (v : Nat) : Peeling :=
  if p.isRemoved v then p
  else
    let left := p.count v - 1
    { p with
      remaining := p.remaining.setIfInBounds v left
      queue := if left = 0 then p.queue ++ [v] else p.queue }

/-- Removes the first node of the queue and counts it off at its successors. -/
def step (g : Adjacency) (p : Peeling) : Option Peeling :=
  match p.queue with
  | [] => none
  | u :: rest =>
    some ((g.after u).foldl release
      { p with removed := p.removed.setIfInBounds u true, queue := rest })

/-- So many steps, fewer if the queue runs empty. -/
def run (g : Adjacency) : Nat → Peeling → Peeling
  | 0, p => p
  | n + 1, p =>
    match p.step g with
    | none => p
    | some q => run g n q

/-- A whole pass: no node is queued twice, so there are at most as many steps as nodes. -/
def pass (g : Adjacency) (removed : Array Bool) : Array Bool :=
  (run g g.size (start g removed)).removed

end Peeling

/-- **The nodes that survive peeling from both sides**, in increasing order. -/
def Adjacency.core (g : Adjacency) : List Nat :=
  let forward := Peeling.pass g ((List.replicate g.size false).toArray)
  -- What is left has a predecessor that is left; now the same for successors.
  let both := Peeling.pass g.reverse forward
  (List.range g.size).filter (fun u => !(both[u]?.getD false))

end CallChain
