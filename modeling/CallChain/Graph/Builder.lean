import CallChain.Graph

/-!
# Building graphs

A graph is built up call by call. Mappings go onto the edge that was added last.

* `BuildStep`: what can be said about a graph under construction.
* `Graph.extend`, `Graph.ofSteps`: one step and all of them.
-/

set_option autoImplicit false

namespace CallChain

/-- **One step of building a graph.** -/
inductive BuildStep where
  | name (name : String)
  | description (text : String)
  /-- A call without fixed values. -/
  | call (id api : String)
  /-- A call with fixed values; of several for one parameter the last counts. -/
  | node (id api : String) (settings : List (String × Json))
  | connect (source target : String)
  /-- A connection with one mapping. -/
  | connectMapped (source target : String) (mapping : Mapping)
  /-- One more mapping for the connection that was added last. -/
  | map (mapping : Mapping)

/-- Changes the last element of a list. -/
def updateLast {α : Type} (f : α → α) : List α → List α
  | [] => []
  | [a] => [f a]
  | a :: rest => a :: updateLast f rest

namespace Graph

/-- A graph under construction, named by its id. -/
def start (id : String) : Graph := { id := id, name := id }

/-- The graph after one more step. -/
def extend (g : Graph) : BuildStep → Graph
  | .name name => { g with name := name }
  | .description text => { g with description := some text }
  | .call id api => { g with nodes := g.nodes ++ [{ id := id, api := api }] }
  | .node id api settings =>
    { g with nodes := g.nodes ++ [{ id := id, api := api, overrides := Entries.ofPairs settings }] }
  | .connect source target => { g with edges := g.edges ++ [{ source := source, target := target }] }
  | .connectMapped source target mapping =>
    { g with edges := g.edges ++ [{ source := source, target := target, mappings := [mapping] }] }
  | .map mapping =>
    { g with
      edges := updateLast (fun e => { e with mappings := e.mappings ++ [mapping] }) g.edges }

/-- **The graph of a sequence of steps.** -/
def ofSteps (id : String) (steps : List BuildStep) : Graph := steps.foldl extend (start id)

end Graph

end CallChain
