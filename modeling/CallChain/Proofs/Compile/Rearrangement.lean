import CallChain.Proofs.Compile.Lookups

/-!
# The order of declaration

Nodes and edges may be declared in any order (`CallChain.Graph.Rearranges`). The numbers that the
nodes get, their lists of neighbours and the order in which nodes are peeled all depend on it; what
comes of a chain does not.

* A chain stays the chain of the same list, since a chain is a matter of which nodes and edges there
  are (`CallChain.Graph.Rearranges.isChain`).
* Along the list, planning asks for the node of an id and for the mappings into it. No two nodes
  have one id and no two edges have one target, so there is nothing to choose between
  (`CallChain.Graph.Rearranges.node?_eq`, `CallChain.Graph.Rearranges.mappingsInto_eq`).

So a chain that is declared in another order compiles to the same tool, or is refused for the same
reason (`CallChain.Graph.compileWith_eq_of_rearranges`).
-/

set_option autoImplicit false

namespace CallChain

namespace Graph

/-- **The same graph, declared in another order.** The mappings of an edge keep theirs. -/
structure Rearranges (g' g : Graph) : Prop where
  id_eq : g'.id = g.id
  name_eq : g'.name = g.name
  description_eq : g'.description = g.description
  nodes_perm : g'.nodes.Perm g.nodes
  edges_perm : g'.edges.Perm g.edges

namespace Rearranges

variable {g' g : Graph} {order : List String}

theorem ids_perm (h : g'.Rearranges g) : g'.ids.Perm g.ids := h.nodes_perm.map _

/-- **A chain stays the chain of the same list.** -/
theorem isChain (h : g'.Rearranges g) (hchain : g.IsChain order) : g'.IsChain order where
  nodes_ne_nil := fun hnil => hchain.nodes_ne_nil (hnil ▸ h.nodes_perm).nil_eq.symm
  ids_nodup := h.ids_perm.nodup_iff.mpr hchain.ids_nodup
  ends_known := by
    intro e he
    rw [h.ids_perm.mem_iff, h.ids_perm.mem_iff]
    exact hchain.ends_known e (h.edges_perm.mem_iff.mp he)
  perm_ids := hchain.perm_ids.trans h.ids_perm.symm
  perm_edges := (h.edges_perm.map _).trans hchain.perm_edges

/-- An id has the same node. -/
theorem node?_eq (h : g'.Rearranges g) (hchain : g.IsChain order) (id : String) :
    g'.node? id = g.node? id := by
  refine Option.ext fun node => ?_
  rw [node?_eq_some_iff (h.isChain hchain).ids_nodup, node?_eq_some_iff hchain.ids_nodup,
    h.nodes_perm.mem_iff]

/-- The same edges lead to an id: there is at most one of them. -/
theorem incoming_eq (h : g'.Rearranges g) (hchain : g.IsChain order) (id : String) :
    g'.incoming id = g.incoming id := by
  have hperm : (g'.incoming id).Perm (g.incoming id) := h.edges_perm.filter _
  rcases hincoming : g.incoming id with _ | ⟨e, more⟩
  · rw [hincoming] at hperm
    exact hperm.eq_nil
  · have hmem : e ∈ g.incoming id := hincoming ▸ List.mem_cons_self
    obtain ⟨he, htarget⟩ := List.mem_filter.mp hmem
    have hsingle : g.incoming id = [e] := beq_iff_eq.mp htarget ▸ hchain.incoming_eq he
    rw [← hincoming, hsingle, ← List.perm_singleton, ← hsingle]
    exact hperm

theorem mappingsInto_eq (h : g'.Rearranges g) (hchain : g.IsChain order) (id : String) :
    g'.mappingsInto id = g.mappingsInto id := by
  rw [mappingsInto, mappingsInto, h.incoming_eq hchain]

/-- **Planning meets the same nodes and mappings**, along any list of ids, so it comes to the same
steps or to the same error. -/
theorem planFrom_eq (h : g'.Rearranges g) (hchain : g.IsChain order)
    (definition? : String → Option ApiDefinition) (previous? : Option PlanStep)
    (fields ids : List String) :
    planFrom g' definition? previous? fields ids = planFrom g definition? previous? fields ids := by
  induction ids generalizing previous? fields with
  | nil => rw [planFrom, planFrom]
  | cons id rest ih =>
    rw [planFrom, planFrom, h.node?_eq hchain]
    simp only [ih, h.mappingsInto_eq hchain]

theorem assemble_eq (h : g'.Rearranges g) (hchain : g.IsChain order)
    (definition? : String → Option ApiDefinition) (ids : List String) (id : Uuid) :
    g'.assemble definition? ids id = g.assemble definition? ids id := by
  rw [assemble, assemble, plan, plan, h.planFrom_eq hchain, h.id_eq, h.name_eq, h.description_eq]

end Rearranges

/-- **What a chain compiles to does not depend on the order of declaration.** The chain is found
again, and against any definitions the outcome is the same but for the id of the tool: the same tool,
or the same error, with its words and its node. -/
theorem compileWith_eq_of_rearranges {g' g : Graph} (h : g'.Rearranges g) {order : List String}
    (horder : g.order = .ok order) :
    g'.order = .ok order ∧
      ∀ (definition? : String → Option ApiDefinition) (id id' : Uuid),
        (g'.compileWith definition? id).map (fun t => { t with id := id' }) =
          g.compileWith definition? id' := by
  have hchain := isChain_of_order_eq_ok horder
  have horder' := (h.isChain hchain).order_eq_ok
  refine ⟨horder', fun definition? id id' => ?_⟩
  rw [compileWith, compileWith, horder, horder']
  calc (g'.assemble definition? order id).map (fun t => { t with id := id' })
      = g'.assemble definition? order id' := assemble_map_id order id id'
    _ = g.assemble definition? order id' := h.assemble_eq hchain definition? order id'

/-! ### Three calls -/

/-- Three calls, declared as they are made. -/
def inTurn : Graph where
  id := "turn"
  name := "In turn"
  nodes := [⟨"first", "list", []⟩, ⟨"second", "show", []⟩, ⟨"third", "list", []⟩]
  edges := [⟨"first", "second", [⟨"id", "id"⟩]⟩, ⟨"second", "third", []⟩]

/-- The same calls, the last one declared first. -/
def inReverse : Graph :=
  { inTurn with nodes := inTurn.nodes.reverse, edges := inTurn.edges.reverse }

/-- Both ways to declare the calls lead to one tool. -/
theorem inReverse_compileWith :
    inReverse.Rearranges inTurn ∧ inTurn.order = .ok ["first", "second", "third"] ∧
      inReverse.order = .ok ["first", "second", "third"] ∧
      ∃ t, inTurn.compileWith Pair.api? .nil = .ok t ∧
        (inReverse.compileWith Pair.api? .nil).map (fun t => { t with id := .nil }) = .ok t := by
  have hrearranges : inReverse.Rearranges inTurn :=
    ⟨rfl, rfl, rfl, List.reverse_perm _, List.reverse_perm _⟩
  have horder : inTurn.order = .ok ["first", "second", "third"] := by decide +kernel
  obtain ⟨horder', htool⟩ := compileWith_eq_of_rearranges hrearranges horder
  obtain ⟨t, ht⟩ : ∃ t, inTurn.compileWith Pair.api? .nil = .ok t :=
    ⟨_, by with_unfolding_all rfl⟩
  exact ⟨hrearranges, horder, horder', t, ht, (htool Pair.api? .nil .nil).trans ht⟩

end Graph

end CallChain
