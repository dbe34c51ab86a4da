import CallChain.Proofs.Graph.Numbering

/-!
# Chains and their orders

A graph is the chain of a list of ids when the list names every node once and the edges are exactly
the pairs of neighbours in it, each once. `CallChain.Graph.order_eq_ok_iff_isChain` says that the
order of a graph is found exactly when the graph is a chain, and that it is the list of the chain.
In particular a graph is the chain of at most one list.

In one direction an accepted multigraph of numbers is one row, and along a row the neighbours are
the edges. In the other the neighbours of a list without repetitions form a multigraph that no
check objects to (`CallChain.Adjacency.Spells`): arrows lead forward in the list, no number has two
left or two right neighbours, and only the first one has no left neighbour.

On a chain an edge leads from one id to the next (`CallChain.Graph.IsChain.arrow_iff`) and is the
only one with its target (`CallChain.Graph.IsChain.incoming_eq`), so there is one way to follow the
edges, and it is the way of the list.
-/

set_option autoImplicit false

namespace CallChain

open Relation

/-! ### The multigraph of a list -/

namespace Adjacency

variable {n : ℕ} {edges : List (ℕ × ℕ)} {s : ℕ} {rest : List ℕ}

/-- What is asked of a list of numbers: it lists the numbers below a bound, and its neighbours are
the edges. -/
structure Spells (n : ℕ) (edges : List (ℕ × ℕ)) (ns : List ℕ) : Prop where
  perm_range : ns.Perm (List.range n)
  perm_edges : edges.Perm (consecutive ns)

namespace Spells

variable {ns : List ℕ}

theorem nodup (h : Spells n edges ns) : ns.Nodup := h.perm_range.nodup_iff.mpr List.nodup_range

theorem mem_iff (h : Spells n edges ns) (v : ℕ) : v ∈ ns ↔ v < n := by
  rw [h.perm_range.mem_iff, List.mem_range]

theorem edges_lt (h : Spells n edges ns) : ∀ e ∈ edges, e.1 < n ∧ e.2 < n := by
  intro e he
  have hmem := h.perm_edges.mem_iff.mp he
  exact ⟨(h.mem_iff _).mp (fst_mem_of_mem_consecutive hmem),
    (h.mem_iff _).mp (List.mem_of_mem_tail (snd_mem_tail_of_mem_consecutive hmem))⟩

/-- Arrows lead forward in the list, so they close no cycle. -/
theorem acyclic (h : Spells n edges ns) : (ofEdges n edges).Acyclic := by
  -- Places in the list grow along every path.
  have hforward : ∀ {u v}, TransGen (ofEdges n edges).Arrow u v → ns.idxOf u < ns.idxOf v := by
    intro u v hpath
    have hstep : ∀ {u v}, (ofEdges n edges).Arrow u v → ns.idxOf u < ns.idxOf v := by
      intro u v harrow
      have hmem := (arrow_ofEdges_iff h.edges_lt).mp harrow
      exact idxOf_lt_idxOf_of_mem_consecutive h.nodup (h.perm_edges.mem_iff.mp hmem)
    induction hpath with
    | single harrow => exact hstep harrow
    | tail _ harrow ih => exact ih.trans (hstep harrow)
  exact fun v hcycle => absurd (hforward hcycle) (lt_irrefl _)

/-- How often a number is a right neighbour. -/
theorem length_before (h : Spells n edges ns) {v : ℕ} (hv : v < n) :
    ((ofEdges n edges).before v).length = ns.tail.count v := by
  rw [length_before_ofEdges hv, (h.perm_edges.map Prod.snd).count_eq, map_snd_consecutive]

/-- No number is a left or a right neighbour twice. -/
theorem unbranched (h : Spells n edges ns) : (ofEdges n edges).Unbranched := by
  intro v
  by_cases hv : v < n
  · constructor
    · rw [h.length_before hv]
      exact List.nodup_iff_count_le_one.mp (h.nodup.sublist (List.tail_sublist ns)) v
    · rw [length_after_ofEdges hv, (h.perm_edges.map Prod.fst).count_eq, map_fst_consecutive]
      exact List.nodup_iff_count_le_one.mp (h.nodup.sublist (List.dropLast_sublist ns)) v
  · rw [before_ofEdges_of_le (by omega), after_ofEdges_of_le (by omega)]
    exact ⟨Nat.zero_le 1, Nat.zero_le 1⟩

/-- Only the first number is no right neighbour. -/
theorem onlyStart (h : Spells n edges (s :: rest)) : (ofEdges n edges).OnlyStart s := by
  obtain ⟨hs, -⟩ := List.nodup_cons.mp h.nodup
  refine ⟨(h.mem_iff s).mp List.mem_cons_self, fun v hv => ?_⟩
  rw [← List.length_eq_zero_iff, h.length_before hv, List.tail_cons, List.count_eq_zero]
  constructor
  · exact fun hnot => (List.mem_cons.mp ((h.mem_iff v).mpr hv)).resolve_right hnot
  · rintro rfl
    exact hs

theorem row (h : Spells n edges ns) : (ofEdges n edges).Row ns := by
  refine (row_iff_count_consecutive h.nodup).mpr fun u hu v => ?_
  rw [count_after_ofEdges ((h.mem_iff u).mp hu), h.perm_edges.count_eq]

end Spells

/-- A row that lists all numbers spells the edges. -/
theorem Row.spells (hlt : ∀ e ∈ edges, e.1 < n ∧ e.2 < n) {ns : List ℕ}
    (hrow : (ofEdges n edges).Row ns) (hnodup : ns.Nodup) (hall : ∀ v, v ∈ ns ↔ v < n) :
    Spells n edges ns where
  perm_range := (List.perm_ext_iff_of_nodup hnodup List.nodup_range).mpr fun v => by
    rw [hall, List.mem_range]
  perm_edges := by
    refine List.perm_iff_count.mpr fun ⟨u, v⟩ => ?_
    by_cases hu : u < n
    · rw [(row_iff_count_consecutive hnodup).mp hrow u ((hall u).mpr hu), count_after_ofEdges hu]
    · rw [List.count_eq_zero_of_not_mem fun hmem => hu (hlt _ hmem).1,
        List.count_eq_zero_of_not_mem fun hmem =>
          hu ((hall u).mp (fst_mem_of_mem_consecutive hmem))]

end Adjacency

/-! ### Chains -/

namespace Graph

/-- **A graph is the chain of a list of ids**: there are nodes, their ids are distinct and edges
have known ends; the list names every node once, and the edges are the pairs of neighbours in it,
each once. -/
structure IsChain (g : Graph) (order : List String) : Prop where
  nodes_ne_nil : g.nodes ≠ []
  ids_nodup : g.ids.Nodup
  ends_known : ∀ e ∈ g.edges, e.source ∈ g.ids ∧ e.target ∈ g.ids
  perm_ids : order.Perm g.ids
  perm_edges : (g.edges.map fun e => (e.source, e.target)).Perm (consecutive order)

/-- The names along a list of numbers that spells the edges make a chain. -/
theorem Numbered.isChain {g : Graph} (h : g.Numbered) (hnodes : g.nodes ≠ []) {ns : List ℕ}
    (hspells : Adjacency.Spells g.nodes.length (g.edges.map (numbers g.ids)) ns) :
    g.IsChain (ns.map (nameOf g.ids)) where
  nodes_ne_nil := hnodes
  ids_nodup := h.nodup
  ends_known := h.known
  perm_ids := by
    have hperm := hspells.perm_range.map (nameOf g.ids)
    rwa [← length_ids, map_nameOf_range] at hperm
  perm_edges := by
    have hperm := hspells.perm_edges.map (Prod.map (nameOf g.ids) (nameOf g.ids))
    rw [List.map_map, ← consecutive_map] at hperm
    refine (List.Perm.of_eq (List.map_congr_left fun e he => ?_)).trans hperm
    simp [numbers, nameOf_idxOf (h.known e he).1, nameOf_idxOf (h.known e he).2]

/-- The numbers along a chain spell the edges. -/
theorem IsChain.spells {g : Graph} {order : List String} (h : g.IsChain order) :
    Adjacency.Spells g.nodes.length (g.edges.map (numbers g.ids)) (order.map g.ids.idxOf) where
  perm_range := by
    have hperm := h.perm_ids.map g.ids.idxOf
    rwa [map_idxOf_self h.ids_nodup, length_ids] at hperm
  perm_edges := by
    rw [consecutive_map]
    have hperm := h.perm_edges.map (Prod.map g.ids.idxOf g.ids.idxOf)
    rwa [List.map_map] at hperm

theorem IsChain.numbered {g : Graph} {order : List String} (h : g.IsChain order) : g.Numbered :=
  ⟨h.ids_nodup, h.ends_known⟩

/-- An order that was found is that of a chain. -/
theorem isChain_of_order_eq_ok {g : Graph} {order : List String} (h : g.order = .ok order) :
    g.IsChain order := by
  obtain ⟨hnumbered, hnodes, horder⟩ := order_eq_ok_iff.mp h
  obtain ⟨-, -, s, rest, -, hrow, hnodup, hall, rfl⟩ :=
    (orderOf_eq_ok_iff hnumbered.coherent).mp horder
  exact hnumbered.isChain hnodes (hrow.spells hnumbered.lt_length hnodup hall)

/-- The order of a chain is found. -/
theorem IsChain.order_eq_ok {g : Graph} {order : List String} (h : g.IsChain order) :
    g.order = .ok order := by
  have hnames : order = (order.map g.ids.idxOf).map (nameOf g.ids) := by
    rw [List.map_map]
    refine (List.map_id order).symm.trans (List.map_congr_left fun id hid => ?_)
    exact (nameOf_idxOf (h.perm_ids.mem_iff.mp hid)).symm
  have hspells := h.spells
  rcases order with _ | ⟨first, later⟩
  · exact absurd (List.map_eq_nil_iff.mp h.perm_ids.nil_eq.symm) h.nodes_ne_nil
  · refine order_eq_ok_iff.mpr ⟨h.numbered, h.nodes_ne_nil,
      (orderOf_eq_ok_iff h.numbered.coherent).mpr ⟨hspells.acyclic, hspells.unbranched, ?_⟩⟩
    exact ⟨g.ids.idxOf first, later.map g.ids.idxOf, hspells.onlyStart, hspells.row,
      hspells.nodup, hspells.mem_iff, hnames⟩

/-- **The order of a graph is found exactly when the graph is a chain**, and then it is the list of
the chain; so a graph is the chain of at most one list. -/
theorem order_eq_ok_iff_isChain (g : Graph) :
    (∀ order, g.order = .ok order ↔ g.IsChain order) ∧
      ∀ order order', g.IsChain order → g.IsChain order' → order = order' := by
  refine ⟨fun order => ⟨isChain_of_order_eq_ok, IsChain.order_eq_ok⟩, fun order order' h h' => ?_⟩
  exact Except.ok.inj (h.order_eq_ok.symm.trans h'.order_eq_ok)

/-! ### Along a chain -/

/-- When no id is repeated, a node is found by its id. -/
theorem node?_eq_some_iff {g : Graph} (hnodup : g.ids.Nodup) {id : String} {node : Node} :
    g.node? id = some node ↔ node ∈ g.nodes ∧ node.id = id := by
  constructor
  · intro h
    exact ⟨List.mem_of_find?_eq_some h, by simpa using List.find?_some h⟩
  · rintro ⟨hmem, rfl⟩
    rcases hfind : g.node? node.id with _ | found
    · exact absurd (beq_self_eq_true node.id) (List.find?_eq_none.mp hfind node hmem)
    · have hid : found.id = node.id := by simpa using List.find?_some hfind
      rw [List.inj_on_of_nodup_map hnodup (List.mem_of_find?_eq_some hfind) hmem hid]

namespace IsChain

variable {g : Graph} {order : List String}

theorem order_nodup (h : g.IsChain order) : order.Nodup := h.perm_ids.nodup_iff.mpr h.ids_nodup

theorem map_source_perm (h : g.IsChain order) : (g.edges.map (·.source)).Perm order.dropLast := by
  simpa [map_fst_consecutive, Function.comp_def] using h.perm_edges.map Prod.fst

theorem map_target_perm (h : g.IsChain order) : (g.edges.map (·.target)).Perm order.tail := by
  simpa [map_snd_consecutive, Function.comp_def] using h.perm_edges.map Prod.snd

/-- Arrows lead from one id to the next. -/
theorem arrow_iff (h : g.IsChain order) {a b : String} :
    g.Arrow a b ↔ (a, b) ∈ consecutive order := by
  rw [← h.perm_edges.mem_iff, List.mem_map]
  simp [Arrow]

/-- An edge is all that leads to its target. -/
theorem incoming_eq (h : g.IsChain order) {e : Edge} (he : e ∈ g.edges) :
    g.incoming e.target = [e] := by
  have hnodup : (g.edges.map (·.target)).Nodup :=
    h.map_target_perm.nodup_iff.mpr (h.order_nodup.sublist (List.tail_sublist order))
  have hfilter : g.incoming e.target = g.edges.filter (· == e) := by
    refine List.filter_congr fun e' he' => ?_
    rw [Bool.eq_iff_iff, beq_iff_eq, beq_iff_eq]
    exact ⟨List.inj_on_of_nodup_map hnodup he' he, congrArg Edge.target⟩
  rw [hfilter, List.filter_beq, List.count_eq_one_of_mem hnodup.of_map he, List.replicate_one]

/-- The first id is the only one that nothing leads to. -/
theorem incoming_eq_nil_iff {first : String} {later : List String}
    (h : g.IsChain (first :: later)) {id : String} (hid : id ∈ g.ids) :
    g.incoming id = [] ↔ id = first := by
  have hmem : id ∈ first :: later := h.perm_ids.mem_iff.mpr hid
  have htarget : g.incoming id = [] ↔ id ∉ later := by
    have hperm : (g.edges.map (·.target)).Perm later := h.map_target_perm
    rw [incoming, List.filter_eq_nil_iff, ← hperm.mem_iff, List.mem_map]
    simp
  rw [htarget]
  constructor
  · exact fun hnot => (List.mem_cons.mp hmem).resolve_right hnot
  · rintro rfl
    exact (List.nodup_cons.mp h.order_nodup).1

end IsChain

end Graph

end CallChain
