import CallChain.Proofs.Graph.Walk

/-!
# Nodes by number

The checks of a graph work on numbers: a node is the place of its id in the list of ids, an edge is
a pair of places. When no id is repeated and every edge has both ends, the numbering loses nothing.
`CallChain.Graph.adjacency` is the multigraph of numbers, and `CallChain.Graph.order_eq_ok_iff` says
that an order is given exactly when the ids allow the numbering and the multigraph of numbers has
an order.

Arrows between ids are arrows between numbers and the other way round
(`CallChain.Graph.Numbered.arrow_idxOf`, `CallChain.Graph.Numbered.arrow_nameOf`), so what is known
about cycles of numbers is known about cycles of ids.
-/

set_option autoImplicit false

namespace CallChain

open Relation

/-! ### Ids -/

theorem firstRepeat_eq_none_iff {seen l : List String} :
    firstRepeat seen l = none ↔ l.Nodup ∧ ∀ a ∈ l, a ∉ seen := by
  induction l generalizing seen with
  | nil => simp [firstRepeat]
  | cons a rest ih =>
    rw [firstRepeat]
    by_cases ha : seen.contains a
    · rw [if_pos ha]
      have hmem : a ∈ seen := List.contains_iff_mem.mp ha
      simp [hmem]
    · rw [if_neg ha, ih, List.nodup_cons]
      have hmem : a ∉ seen := fun h => ha (List.contains_iff_mem.mpr h)
      simp only [List.mem_cons, not_or, forall_eq_or_imp]
      constructor
      · rintro ⟨hnodup, hnew⟩
        exact ⟨⟨fun hin => (hnew a hin).1 rfl, hnodup⟩, hmem, fun b hb => (hnew b hb).2⟩
      · rintro ⟨⟨hnotin, hnodup⟩, -, hnew⟩
        exact ⟨hnodup, fun b hb => ⟨fun he => hnotin (he ▸ hb), hnew b hb⟩⟩

namespace Graph

/-! ### Numbers -/

theorem number?_eq (ids : List String) (id : String) :
    number? ids id = if id ∈ ids then some (ids.idxOf id) else none := by
  by_cases h : id ∈ ids
  · rw [if_pos h]
    exact List.findIdx?_eq_some_of_exists ⟨id, h, beq_self_eq_true id⟩
  · rw [if_neg h, number?, List.findIdx?_eq_none_iff]
    intro a ha
    exact beq_eq_false_iff_ne.mpr fun he => h (he ▸ ha)

/-- The pair of numbers of an edge. -/
def numbers (ids : List String) (e : Edge) : ℕ × ℕ := (ids.idxOf e.source, ids.idxOf e.target)

/-- Both ends of an edge are known. -/
def Known (ids : List String) (e : Edge) : Prop := e.source ∈ ids ∧ e.target ∈ ids

/-- **Edges are numbered if all their ends are known**; otherwise an end that is not is reported. -/
theorem numberedEdges_cases (ids : List String) (es : List Edge) :
    ((∀ e ∈ es, Known ids e) ∧ numberedEdges ids es = .ok (es.map (numbers ids))) ∨
      ((∃ e ∈ es, ¬Known ids e) ∧ ∃ source target missing,
        numberedEdges ids es = .error (.unknownEdgeEndpoint source target missing)) := by
  induction es with
  | nil => exact Or.inl ⟨by simp, rfl⟩
  | cons e rest ih =>
    rw [numberedEdges, number?_eq, number?_eq]
    by_cases hs : e.source ∈ ids
    · by_cases ht : e.target ∈ ids
      · simp only [if_pos hs, if_pos ht]
        rcases ih with ⟨hknown, hrest⟩ | ⟨⟨e', he', hunknown⟩, source, target, missing, hrest⟩
        · rw [hrest]
          exact Or.inl ⟨List.forall_mem_cons.mpr ⟨⟨hs, ht⟩, hknown⟩, rfl⟩
        · rw [hrest]
          exact Or.inr ⟨⟨e', List.mem_cons_of_mem e he', hunknown⟩, source, target, missing, rfl⟩
      · simp only [if_pos hs, if_neg ht]
        exact Or.inr ⟨⟨e, List.mem_cons_self, fun h => ht h.2⟩, _, _, _, rfl⟩
    · simp only [if_neg hs]
      exact Or.inr ⟨⟨e, List.mem_cons_self, fun h => hs h.1⟩, _, _, _, rfl⟩

theorem numbers_lt {ids : List String} {e : Edge} (h : Known ids e) :
    (numbers ids e).1 < ids.length ∧ (numbers ids e).2 < ids.length :=
  ⟨List.idxOf_lt_length_of_mem h.1, List.idxOf_lt_length_of_mem h.2⟩

theorem nameOf_idxOf {ids : List String} {id : String} (h : id ∈ ids) :
    nameOf ids (ids.idxOf id) = id := by
  rw [nameOf, List.getElem?_idxOf h, Option.getD_some]

theorem idxOf_nameOf {ids : List String} (hnodup : ids.Nodup) {u : ℕ} (hu : u < ids.length) :
    ids.idxOf (nameOf ids u) = u := by
  rw [nameOf, List.getElem?_eq_getElem hu, Option.getD_some]
  exact hnodup.idxOf_getElem u hu

/-- All names in order are the ids. -/
theorem map_nameOf_range (ids : List String) : (List.range ids.length).map (nameOf ids) = ids := by
  refine List.ext_getElem (by simp) fun u _ hu => ?_
  simp [nameOf, hu]

/-- All numbers in order. -/
theorem map_idxOf_self {ids : List String} (hnodup : ids.Nodup) :
    ids.map ids.idxOf = List.range ids.length := by
  refine List.ext_getElem (by simp) fun u hu _ => ?_
  rw [List.length_map] at hu
  rw [List.getElem_map, List.getElem_range]
  exact hnodup.idxOf_getElem u hu

/-! ### The multigraph of numbers -/

/-- **The multigraph of numbers** of a graph. -/
def adjacency (g : Graph) : Adjacency :=
  Adjacency.ofEdges g.nodes.length (g.edges.map (numbers g.ids))

/-- The ids of a graph allow numbering it: none is repeated, and edges have known ends. -/
structure Numbered (g : Graph) : Prop where
  nodup : g.ids.Nodup
  known : ∀ e ∈ g.edges, Known g.ids e

/-- **An arrow** from one id to another: at least one edge. -/
def Arrow (g : Graph) (a b : String) : Prop := ∃ e ∈ g.edges, e.source = a ∧ e.target = b

@[simp] theorem length_ids (g : Graph) : g.ids.length = g.nodes.length := List.length_map _

@[simp] theorem size_adjacency (g : Graph) : g.adjacency.size = g.nodes.length := rfl

/-- **The checks before the multigraph is looked at, one after another**: repeated ids, no nodes,
unknown ends of edges. -/
theorem order_cases (g : Graph) :
    (¬g.ids.Nodup ∧ ∃ id, g.order = .error (.duplicateNode id)) ∨
    (g.nodes = [] ∧ g.order = .error .noStartNode) ∨
    (¬g.Numbered ∧ ∃ source target missing,
      g.order = .error (.unknownEdgeEndpoint source target missing)) ∨
    (g.Numbered ∧ g.nodes ≠ [] ∧ g.order = orderOf g.ids g.adjacency) := by
  rw [Graph.order]
  rcases hrepeat : firstRepeat [] g.ids with _ | id
  · have hnodup : g.ids.Nodup := (firstRepeat_eq_none_iff.mp hrepeat).1
    by_cases hnodes : g.nodes = []
    · refine Or.inr (Or.inl ⟨hnodes, ?_⟩)
      simp [hnodes]
    · simp only [List.isEmpty_iff, hnodes, if_false]
      rcases numberedEdges_cases g.ids g.edges with
        ⟨hknown, h⟩ | ⟨⟨e, he, hunknown⟩, source, target, missing, h⟩
      · rw [h]
        exact Or.inr (Or.inr (Or.inr ⟨⟨hnodup, hknown⟩, hnodes, rfl⟩))
      · rw [h]
        exact Or.inr (Or.inr (Or.inl
          ⟨fun hnumbered => hunknown (hnumbered.known e he), source, target, missing, rfl⟩))
  · refine Or.inl ⟨fun hnodup => ?_, id, rfl⟩
    have hnone : firstRepeat [] g.ids = none := firstRepeat_eq_none_iff.mpr ⟨hnodup, by simp⟩
    cases hnone.symm.trans hrepeat

theorem Numbered.order_eq {g : Graph} (h : g.Numbered) (hnodes : g.nodes ≠ []) :
    g.order = orderOf g.ids g.adjacency := by
  rcases order_cases g with ⟨hnodup, -⟩ | ⟨hnil, -⟩ | ⟨hnot, -⟩ | ⟨-, -, horder⟩
  · exact absurd h.nodup hnodup
  · exact absurd hnil hnodes
  · exact absurd h hnot
  · exact horder

/-- An order comes from the multigraph. -/
theorem order_eq_ok_iff {g : Graph} {order : List String} :
    g.order = .ok order ↔
      g.Numbered ∧ g.nodes ≠ [] ∧ orderOf g.ids g.adjacency = .ok order := by
  refine ⟨fun h => ?_, fun ⟨hnumbered, hnodes, h⟩ => (hnumbered.order_eq hnodes).trans h⟩
  rcases order_cases g with ⟨-, _, herr⟩ | ⟨-, herr⟩ | ⟨-, _, _, _, herr⟩ |
    ⟨hnumbered, hnodes, horder⟩
  · cases herr.symm.trans h
  · cases herr.symm.trans h
  · cases herr.symm.trans h
  · exact ⟨hnumbered, hnodes, horder.symm.trans h⟩

namespace Numbered

variable {g : Graph}

theorem lt_length (h : g.Numbered) :
    ∀ p ∈ g.edges.map (numbers g.ids), p.1 < g.nodes.length ∧ p.2 < g.nodes.length := by
  intro p hp
  obtain ⟨e, he, rfl⟩ := List.mem_map.mp hp
  exact length_ids g ▸ numbers_lt (h.known e he)

theorem coherent (h : g.Numbered) : g.adjacency.Coherent := Adjacency.coherent_ofEdges h.lt_length

/-- Arrows between ids are arrows between their numbers. -/
theorem arrow_idxOf (h : g.Numbered) {a b : String} (harrow : g.Arrow a b) :
    g.adjacency.Arrow (g.ids.idxOf a) (g.ids.idxOf b) := by
  obtain ⟨e, he, rfl, rfl⟩ := harrow
  exact (Adjacency.arrow_ofEdges_iff h.lt_length).mpr (List.mem_map_of_mem he)

/-- Arrows between numbers are arrows between their ids. -/
theorem arrow_nameOf (h : g.Numbered) {u v : ℕ} (harrow : g.adjacency.Arrow u v) :
    g.Arrow (nameOf g.ids u) (nameOf g.ids v) := by
  obtain ⟨e, he, heq⟩ := List.mem_map.mp ((Adjacency.arrow_ofEdges_iff h.lt_length).mp harrow)
  obtain ⟨rfl, rfl⟩ := Prod.mk.inj heq
  exact ⟨e, he, (nameOf_idxOf (h.known e he).1).symm, (nameOf_idxOf (h.known e he).2).symm⟩

end Numbered

end Graph

end CallChain
