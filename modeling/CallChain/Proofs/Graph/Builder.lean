import CallChain.Graph.Builder
import CallChain.Proofs.Entries
import Mathlib.Data.List.Induction

/-!
# What becomes of the steps of building a graph

A graph is built up by steps, and each list of it grows at its end only. So the nodes are those
added, in the order of the steps, and so are the edges (`CallChain.Graph.view_ofSteps`).

A mapping goes onto the edge that was added last. To say which one that is the edges are numbered
from `1`: when a mapping is given, the edge added last has the number of the connections made so
far. `CallChain.BuildStep.given` lists all mappings given with these numbers, and
`CallChain.Graph.placed` the mappings of a graph with the numbers of their edges. Both lists are the
same but for the number `0`: a mapping given before there is an edge is lost
(`CallChain.Graph.placed_ofSteps`).
-/

set_option autoImplicit false

namespace CallChain

/-! ### What a step asks for -/

/-- A node to be added: its id, its operation, and the values set for parameters, first to last. -/
structure Added where
  id : String
  api : String
  settings : List (String × Json) := []

/-- **The node that was asked for.** Of the values set for a parameter it has the last. -/
structure Added.IsNode (a : Added) (n : Node) : Prop where
  id_eq : n.id = a.id
  api_eq : n.api = a.api
  ordered : Entries.Ordered n.overrides
  get?_eq : ∀ param, Entries.get? n.overrides param =
    (a.settings.filter (·.1 == param)).getLast?.map (·.2)

/-- The node with all the values set, later ones over earlier ones. -/
def Added.toNode (a : Added) : Node where
  id := a.id
  api := a.api
  overrides := Entries.ofPairs a.settings

theorem Added.isNode_toNode (a : Added) : a.IsNode a.toNode where
  id_eq := rfl
  api_eq := rfl
  ordered := Entries.ordered_ofPairs a.settings
  get?_eq param := by
    rw [toNode, Entries.get?_ofPairs, ← List.head?_filter, List.filter_reverse, List.head?_reverse]

namespace BuildStep

/-- The node that a step adds. -/
def added? : BuildStep → Option Added
  | .call id api => some { id := id, api := api }
  | .node id api settings => some { id := id, api := api, settings := settings }
  | _ => none

/-- The two ends of the connection that a step makes. -/
def connected? : BuildStep → Option (String × String)
  | .connect source target => some (source, target)
  | .connectMapped source target _ => some (source, target)
  | _ => none

/-- The mapping that a step gives. -/
def mapping? : BuildStep → Option Mapping
  | .connectMapped _ _ mapping => some mapping
  | .map mapping => some mapping
  | _ => none

/-- The number of connections that steps make. -/
def connections (steps : List BuildStep) : ℕ := (steps.filterMap connected?).length

/-- **The mappings given**, each with the number of connections made so far, its own included. -/
def given (steps : List BuildStep) : List (ℕ × Mapping) :=
  steps.zipIdx.filterMap fun p =>
    p.1.mapping?.map fun m => (connections (steps.take (p.2 + 1)), m)

/-- One more step gives its mapping at the end. -/
theorem given_concat (steps : List BuildStep) (s : BuildStep) :
    given (steps ++ [s]) =
      given steps ++ (s.mapping?.map fun m => (connections (steps ++ [s]), m)).toList := by
  rw [given, List.zipIdx_append, List.filterMap_append, given]
  congr 1
  · refine List.filterMap_congr fun p hp => ?_
    have hle : p.2 + 1 ≤ steps.length := (List.mem_zipIdx' hp).1
    rw [List.take_append_of_le_length hle]
  · have hall : (steps ++ [s]).take (steps.length + 1) = steps ++ [s] :=
      List.take_of_length_le (by simp)
    rw [List.zipIdx_singleton, List.filterMap_eq_flatMap_toList, List.flatMap_singleton,
      Nat.zero_add, hall]

end BuildStep

/-! ### The last edge -/

section UpdateLast

variable {α β : Type} (f : α → α)

theorem updateLast_concat (as : List α) (a : α) : updateLast f (as ++ [a]) = as ++ [f a] := by
  induction as with
  | nil => rfl
  | cons b rest ih =>
    have hne : rest ++ [a] ≠ [] := List.append_ne_nil_of_right_ne_nil rest (List.cons_ne_nil a [])
    rw [List.cons_append, updateLast.eq_3 f b _ hne, ih, List.cons_append]

theorem map_updateLast {g : α → β} (h : ∀ a, g (f a) = g a) (as : List α) :
    (updateLast f as).map g = as.map g := by
  rcases as.eq_nil_or_concat' with rfl | ⟨front, a, rfl⟩
  · rfl
  · rw [updateLast_concat, List.map_append, List.map_append, List.map_singleton, h,
      List.map_singleton]

end UpdateLast

/-! ### What a graph has -/

namespace Graph

variable (id : String)

/-- The two ends of each edge. -/
def ends (g : Graph) : List (String × String) := g.edges.map fun e => (e.source, e.target)

/-- **The mappings of a graph**, edge by edge, each with the number of its edge. -/
def placed (g : Graph) : List (ℕ × Mapping) :=
  (g.edges.zipIdx 1).flatMap fun (e, n) => e.mappings.map fun m => (n, m)

/-- The numbers left aside, these are the mappings of all edges. -/
theorem map_snd_placed (g : Graph) : g.placed.map Prod.snd = g.edges.flatMap Edge.mappings := by
  have hedges : g.edges = (g.edges.zipIdx 1).map Prod.fst := (List.zipIdx_map_fst 1 g.edges).symm
  rw [hedges, List.flatMap_map, placed, List.map_flatMap]
  simp

theorem ofSteps_concat (steps : List BuildStep) (s : BuildStep) :
    ofSteps id (steps ++ [s]) = (ofSteps id steps).extend s :=
  List.foldl_concat _ _ _ _

/-- **What grows at its end step by step** is in the end what the steps have added. -/
theorem view_ofSteps {β : Type} {view : Graph → List β} {f : BuildStep → Option β}
    (hstart : view (start id) = [])
    (hextend : ∀ g s, view (extend g s) = view g ++ (f s).toList) (steps : List BuildStep) :
    view (ofSteps id steps) = steps.filterMap f := by
  induction steps using List.reverseRecOn with
  | nil => exact hstart
  | append_singleton steps s ih =>
    rw [ofSteps_concat, hextend, ih, List.filterMap_append, List.filterMap_eq_flatMap_toList f [s],
      List.flatMap_singleton]

theorem nodes_extend (g : Graph) (s : BuildStep) :
    (g.extend s).nodes = g.nodes ++ (s.added?.map Added.toNode).toList := by
  cases s <;> simp [extend, BuildStep.added?, Added.toNode, Entries.ofPairs]

theorem ends_extend (g : Graph) (s : BuildStep) :
    (g.extend s).ends = g.ends ++ s.connected?.toList := by
  cases s with
  | map m => simp [extend, ends, BuildStep.connected?, map_updateLast]
  | name | description | call | node | connect | connectMapped =>
    simp [extend, ends, BuildStep.connected?]

theorem ends_ofSteps (steps : List BuildStep) :
    (ofSteps id steps).ends = steps.filterMap BuildStep.connected? :=
  view_ofSteps id rfl ends_extend steps

theorem length_edges_ofSteps (steps : List BuildStep) :
    (ofSteps id steps).edges.length = BuildStep.connections steps := by
  rw [BuildStep.connections, ← ends_ofSteps id, ends, List.length_map]

/-- **A step places its mapping on the edge added last**, if there is one. -/
theorem placed_extend (g : Graph) (s : BuildStep) :
    (g.extend s).placed = g.placed ++
      (s.mapping?.map fun m => ((g.extend s).edges.length, m)).toList.filter
        (fun p => p.1 ≠ 0) := by
  cases s with
  | name | description | call | node => simp [extend, placed, BuildStep.mapping?]
  | connect | connectMapped =>
    simp [extend, placed, BuildStep.mapping?, List.zipIdx_append, Nat.add_comm 1]
  | map m =>
    rcases g.edges.eq_nil_or_concat' with hedges | ⟨front, e, hedges⟩
    · simp [extend, placed, BuildStep.mapping?, hedges, updateLast]
    · simp [extend, placed, BuildStep.mapping?, hedges, updateLast_concat, List.zipIdx_append,
        Nat.add_comm 1]

/-- **The mappings of a graph are those given**, in the same order, each on the edge that was added
last, but for those given before there was an edge. -/
theorem placed_ofSteps (steps : List BuildStep) :
    (ofSteps id steps).placed = (BuildStep.given steps).filter (fun p => p.1 ≠ 0) := by
  induction steps using List.reverseRecOn with
  | nil => rfl
  | append_singleton steps s ih =>
    rw [ofSteps_concat, placed_extend, ih, ← ofSteps_concat, length_edges_ofSteps,
      BuildStep.given_concat, List.filter_append]

/-- **Building a graph loses nothing but mappings without an edge.**

* The nodes are those added, in order, each with the last of the values set for a parameter.
* The edges are the connections made, in order.
* The mappings, edge by edge, are those given when there was an edge, in order, each on the edge
  that was added last at that step; so there are as many of them. -/
theorem ofSteps_laws (steps : List BuildStep) :
    List.Forall₂ Added.IsNode (steps.filterMap BuildStep.added?) (ofSteps id steps).nodes ∧
    (ofSteps id steps).ends = steps.filterMap BuildStep.connected? ∧
    (ofSteps id steps).placed = (BuildStep.given steps).filter (fun p => p.1 ≠ 0) ∧
    ((ofSteps id steps).edges.flatMap Edge.mappings).length =
      (BuildStep.given steps).countP (fun p => p.1 ≠ 0) := by
  have hplaced := placed_ofSteps id steps
  refine ⟨?_, ends_ofSteps id steps, hplaced, ?_⟩
  · have hnodes : (ofSteps id steps).nodes = steps.filterMap fun s => s.added?.map Added.toNode :=
      view_ofSteps id rfl nodes_extend steps
    rw [hnodes, ← List.map_filterMap, List.forall₂_map_right_iff, List.forall₂_same]
    exact fun a _ => a.isNode_toNode
  · rw [List.countP_eq_length_filter, ← hplaced, ← map_snd_placed, List.length_map]

/-- A mapping that is given before the first connection does not wait for it. -/
theorem map_before_connect :
    ([.map ⟨"a", "b"⟩, .connect "x" "y"] : List BuildStep).filterMap BuildStep.mapping? =
        [⟨"a", "b"⟩] ∧
      (ofSteps "g" [.map ⟨"a", "b"⟩, .connect "x" "y"]).edges =
        [{ source := "x", target := "y" }] := ⟨rfl, rfl⟩

end Graph

end CallChain
