import CallChain.Proofs.Graph.Chain
import CallChain.Proofs.Graph.Cycle

/-!
# What the checks of a graph find

The checks of a graph come in a fixed order, and the first that objects decides. So the answer can
be read off the graph without the checks: `CallChain.Graph.Verdict` has one rule for each answer,
stated by ids, edges and degrees, and `CallChain.Graph.order_eq_iff_verdict` says that the order of
a graph is the answer of its rule. There is exactly one rule that applies.

Behind cycles and branches there is only one thing left that can be wrong. A graph without cycles
has a node that nothing leads to; if it is the only one and nothing branches, the walk from it sees
one row that ends once and misses no node (`CallChain.Graph.theStart_cases`). So a missing or a
second end, a node that is not reached and a cycle met by the walk are never reported.
-/

set_option autoImplicit false

namespace CallChain

open Relation

/-! ### Repeated ids -/

/-- **The first repetition**: what stands before it has no repetitions, and the id occurs there or
was seen already. -/
theorem firstRepeat_eq_some_iff {seen l : List String} {id : String} :
    firstRepeat seen l = some id ↔ ∃ done rest, l = done ++ id :: rest ∧ done.Nodup ∧
      (∀ a ∈ done, a ∉ seen) ∧ (id ∈ seen ∨ id ∈ done) := by
  induction l generalizing seen with
  | nil => simp [firstRepeat]
  | cons a l ih =>
    rw [firstRepeat]
    by_cases ha : a ∈ seen
    · rw [if_pos (List.contains_iff_mem.mpr ha), Option.some_inj]
      constructor
      · rintro rfl
        exact ⟨[], l, rfl, List.nodup_nil, by simp, Or.inl ha⟩
      · rintro ⟨_ | ⟨b, done⟩, rest, heq, -, hnew, -⟩
        · exact (List.cons.inj heq).1
        · exact absurd ((List.cons.inj heq).1 ▸ ha) (hnew b List.mem_cons_self)
    · rw [if_neg fun hc => ha (List.contains_iff_mem.mp hc), ih]
      constructor
      · rintro ⟨done, rest, rfl, hnodup, hnew, hrepeat⟩
        have hafresh : a ∉ done := fun hmem => hnew a hmem List.mem_cons_self
        refine ⟨a :: done, rest, rfl, List.nodup_cons.mpr ⟨hafresh, hnodup⟩, ?_, ?_⟩
        · exact List.forall_mem_cons.mpr
            ⟨ha, fun b hb hseen => hnew b hb (List.mem_cons_of_mem a hseen)⟩
        · simp only [List.mem_cons] at hrepeat ⊢
          tauto
      · rintro ⟨_ | ⟨b, done⟩, rest, heq, hnodup, hnew, hrepeat⟩
        · obtain ⟨rfl, rfl⟩ := List.cons.inj heq
          exact absurd (hrepeat.resolve_right List.not_mem_nil) ha
        · obtain ⟨rfl, rfl⟩ := List.cons.inj heq
          obtain ⟨hafresh, hnodup⟩ := List.nodup_cons.mp hnodup
          obtain ⟨-, hnew⟩ := List.forall_mem_cons.mp hnew
          refine ⟨done, rest, rfl, hnodup, fun c hc => ?_, ?_⟩
          · exact fun hmem => (List.mem_cons.mp hmem).elim (fun he => hafresh (he ▸ hc)) (hnew c hc)
          · simp only [List.mem_cons] at hrepeat ⊢
            tauto

namespace Graph

variable {g : Graph}

/-! ### Unknown ends -/

instance (ids : List String) (e : Edge) : Decidable (Known ids e) :=
  inferInstanceAs (Decidable (_ ∧ _))

/-- The end of an edge that is not known; the source is looked at before the target. -/
def unknownEnd (ids : List String) (e : Edge) : String :=
  if e.source ∈ ids then e.target else e.source

/-- **The first edge with an unknown end is reported.** -/
theorem numberedEdges_of_unknown {ids : List String} {es : List Edge} {e : Edge}
    (h : es.find? (fun e => ¬Known ids e) = some e) :
    numberedEdges ids es =
      .error (.unknownEdgeEndpoint e.source e.target (unknownEnd ids e)) := by
  induction es with
  | nil => cases h
  | cons first rest ih =>
    rw [numberedEdges, number?_eq, number?_eq]
    by_cases hs : first.source ∈ ids
    · by_cases ht : first.target ∈ ids
      · have hknown : Known ids first := ⟨hs, ht⟩
        rw [List.find?_cons_of_neg (by simpa using hknown)] at h
        simp only [if_pos hs, if_pos ht, ih h]
        rfl
      · have hunknown : ¬Known ids first := fun hknown => ht hknown.2
        rw [List.find?_cons_of_pos (by simpa using hunknown), Option.some_inj] at h
        simp only [if_pos hs, if_neg ht, unknownEnd, ← h]
    · have hunknown : ¬Known ids first := fun hknown => hs hknown.1
      rw [List.find?_cons_of_pos (by simpa using hunknown), Option.some_inj] at h
      simp only [if_neg hs, unknownEnd, ← h]

/-! ### Degrees -/

/-- How many edges lead to a node. -/
def inDegree (g : Graph) (id : String) : ℕ := (g.incoming id).length

/-- How many edges lead away from a node. -/
def outDegree (g : Graph) (id : String) : ℕ := (g.edges.filter (·.source == id)).length

/-- Whether a node has two edges into it or two edges out of it. -/
def branchesAt (g : Graph) (id : String) : Bool := 1 < g.inDegree id || 1 < g.outDegree id

/-- The nodes that nothing leads to, in declared order. -/
def starts (g : Graph) : List String := g.ids.filter (g.inDegree · == 0)

namespace Numbered

/-- The number of an id is a number exactly when the id is its name. -/
theorem idxOf_eq_iff (h : g.Numbered) {id : String} (hid : id ∈ g.ids) {u : ℕ}
    (hu : u < g.nodes.length) : g.ids.idxOf id = u ↔ id = nameOf g.ids u := by
  constructor
  · rintro rfl
    exact (nameOf_idxOf hid).symm
  · rintro rfl
    exact idxOf_nameOf h.nodup (length_ids g ▸ hu)

/-- Edges are counted alike by numbers and by ids. -/
theorem count_map_idxOf (h : g.Numbered) {u : ℕ} (hu : u < g.nodes.length) {f : Edge → String}
    (hf : ∀ e ∈ g.edges, f e ∈ g.ids) :
    (g.edges.map fun e => g.ids.idxOf (f e)).count u =
      (g.edges.filter (f · == nameOf g.ids u)).length := by
  rw [List.count_eq_countP, List.countP_map, ← List.countP_eq_length_filter]
  refine List.countP_congr fun e he => ?_
  simpa using h.idxOf_eq_iff (hf e he) hu

theorem length_before (h : g.Numbered) {u : ℕ} (hu : u < g.nodes.length) :
    (g.adjacency.before u).length = g.inDegree (nameOf g.ids u) := by
  rw [adjacency, Adjacency.length_before_ofEdges hu, List.map_map]
  exact h.count_map_idxOf hu fun e he => (h.known e he).2

theorem length_after (h : g.Numbered) {u : ℕ} (hu : u < g.nodes.length) :
    (g.adjacency.after u).length = g.outDegree (nameOf g.ids u) := by
  rw [adjacency, Adjacency.length_after_ofEdges hu, List.map_map]
  exact h.count_map_idxOf hu fun e he => (h.known e he).1

/-- The first number that branches is that of the first id that branches. -/
theorem map_find_branches (h : g.Numbered) :
    ((List.range g.nodes.length).find? g.adjacency.branches).map (nameOf g.ids) =
      g.ids.find? g.branchesAt := by
  conv_rhs => rw [← map_nameOf_range g.ids, List.find?_map, length_ids]
  rw [← List.head?_filter, ← List.head?_filter]
  refine congrArg (fun l => (List.head? l).map (nameOf g.ids)) (List.filter_congr fun u hu => ?_)
  have hu : u < g.nodes.length := List.mem_range.mp hu
  rw [Function.comp_apply, Adjacency.branches, branchesAt, h.length_before hu, h.length_after hu]

/-- The numbers without predecessors are those of the starts. -/
theorem map_nameOf_starts (h : g.Numbered) :
    ((List.range g.nodes.length).filter fun u => (g.adjacency.before u).isEmpty).map
      (nameOf g.ids) = g.starts := by
  rw [starts]
  conv_rhs => rw [← map_nameOf_range g.ids, List.filter_map, length_ids]
  refine congrArg _ (List.filter_congr fun u hu => ?_)
  rw [Function.comp_apply, ← h.length_before (List.mem_range.mp hu), Bool.eq_iff_iff]
  simp

/-- A graph and its numbers have cycles together. -/
theorem acyclic_iff (h : g.Numbered) : g.adjacency.Acyclic ↔ ∀ a, ¬g.OnCycle a := by
  constructor
  · exact fun hacyclic a hcycle => hacyclic _ (h.transGen_idxOf hcycle)
  · exact fun hacyclic v hcycle => hacyclic _ (h.transGen_nameOf hcycle)

end Numbered

/-! ### Starts -/

/-- **Behind cycles and branches there is only one thing left that can be wrong**: several nodes
that nothing leads to. There is at least one such node, and one alone is the start of a row with one
end. -/
theorem theStart_cases {a : Adjacency} (ha : a.Coherent) (hacyclic : a.Acyclic)
    (hline : a.Unbranched) (hsize : 0 < a.size) (ids : List String) {starts : List ℕ}
    (hstarts : (List.range a.size).filter (fun u => (a.before u).isEmpty) = starts) :
    (∃ s, starts = [s] ∧ theStart ids a = .ok s) ∨
      (1 < starts.length ∧
        theStart ids a = .error (.multipleStartNodes (starts.map (nameOf ids)))) := by
  rcases starts with _ | ⟨s, _ | ⟨s', more⟩⟩
  · -- If something leads to every node, the nodes feed each other, and there is a cycle.
    have hfed : a.Fed fun v => v < a.size := by
      intro v hv
      have hnonempty := List.filter_eq_nil_iff.mp hstarts v (List.mem_range.mpr hv)
      obtain ⟨u, hu⟩ := List.exists_mem_of_ne_nil (a.before v) (by simpa using hnonempty)
      exact ⟨u, hu, (ha.lt_size (ha.mem_before_iff.mp hu)).1⟩
    obtain ⟨c, hcycle, -⟩ := Adjacency.exists_cycle_of_fed ha hfed hsize
    exact absurd hcycle (hacyclic c)
  · have hs : a.OnlyStart s := by simpa [Adjacency.OnlyStart] using
      Adjacency.filter_range_eq_singleton_iff.mp hstarts
    obtain ⟨rest, -, hrow, hnodup, hall⟩ := exists_walk_from_start ha hacyclic hline ids hs
    exact Or.inl ⟨s, rfl, theStart_eq_ok_of_row hs hrow hnodup hall⟩
  · refine Or.inr ⟨by simp, ?_⟩
    rw [theStart, hstarts]

/-! ### The answer for a graph with numbers -/

theorem order_of_repeat {id : String} (h : firstRepeat [] g.ids = some id) :
    g.order = .error (.duplicateNode id) := by
  rw [order, h]

theorem order_of_nodes_eq_nil (h : g.nodes = []) : g.order = .error .noStartNode := by
  rw [order, show g.ids = [] by rw [ids, h, List.map_nil], h]
  rfl

theorem order_of_unknown (hnodup : g.ids.Nodup) (hnodes : g.nodes ≠ []) {e : Edge}
    (h : g.edges.find? (fun e => ¬Known g.ids e) = some e) :
    g.order = .error (.unknownEdgeEndpoint e.source e.target (unknownEnd g.ids e)) := by
  have hrepeat : firstRepeat [] g.ids = none := firstRepeat_eq_none_iff.mpr ⟨hnodup, by simp⟩
  rw [order, hrepeat]
  simp only [List.isEmpty_iff, hnodes, if_false, numberedEdges_of_unknown h]
  rfl

open Classical in
/-- **The checks behind the numbering**, by ids: a cycle, a branch, several starts, or a chain. -/
theorem Numbered.order_cases (h : g.Numbered) (hnodes : g.nodes ≠ []) :
    ((∃ a, g.OnCycle a) ∧ g.order = .error (.cycleDetected (g.ids.filter g.BetweenCycles))) ∨
    ((∀ a, ¬g.OnCycle a) ∧ ∃ id, g.ids.find? g.branchesAt = some id ∧
      g.order = .error (.branchingNode id (g.inDegree id) (g.outDegree id))) ∨
    ((∀ a, ¬g.OnCycle a) ∧ g.ids.find? g.branchesAt = none ∧ 1 < g.starts.length ∧
      g.order = .error (.multipleStartNodes g.starts)) ∨
    ((∀ a, ¬g.OnCycle a) ∧ g.ids.find? g.branchesAt = none ∧ g.starts.length = 1 ∧
      ∃ order, g.order = .ok order) := by
  have hbranches := h.map_find_branches
  have hstarts := h.map_nameOf_starts
  have hnone : g.adjacency.Unbranched → g.ids.find? g.branchesAt = none := fun hline => by
    rw [← hbranches, ← size_adjacency, (Adjacency.find_branches_eq_none_iff h.coherent).mpr hline]
    rfl
  rcases orderOf_cases h.coherent g.ids with ⟨hcore, horder⟩ | ⟨hacyclic, u, hfind, horder⟩ |
    ⟨hacyclic, hline, e, hstart, horder⟩ | ⟨hacyclic, hline, s, rest, hs, -, -, -, horder⟩
  · refine Or.inl ⟨?_, by rw [h.order_eq hnodes, horder, h.map_nameOf_core]⟩
    by_contra hnone
    exact hcore ((Adjacency.core_eq_nil_iff h.coherent).mpr
      (h.acyclic_iff.mpr fun a ha => hnone ⟨a, ha⟩))
  · have hu : u < g.nodes.length := List.mem_range.mp (List.mem_of_find?_eq_some hfind)
    rw [size_adjacency] at hfind
    rw [hfind, Option.map_some] at hbranches
    rw [h.length_before hu, h.length_after hu] at horder
    exact Or.inr (Or.inl ⟨h.acyclic_iff.mp hacyclic, _, hbranches.symm,
      by rw [h.order_eq hnodes, horder]⟩)
  · rcases theStart_cases h.coherent hacyclic hline (List.length_pos_iff.mpr hnodes) g.ids rfl with
      ⟨s, -, hok⟩ | ⟨hseveral, herror⟩
    · cases hstart.symm.trans hok
    · obtain rfl : _ = e := Except.error.inj (herror.symm.trans hstart)
      rw [size_adjacency, hstarts] at horder
      rw [size_adjacency, ← List.length_map (nameOf g.ids), hstarts] at hseveral
      exact Or.inr (Or.inr (Or.inl ⟨h.acyclic_iff.mp hacyclic, hnone hline, hseveral,
        by rw [h.order_eq hnodes, horder]⟩))
  · have hsingle : (List.range g.adjacency.size).filter
        (fun u => (g.adjacency.before u).isEmpty) = [s] :=
      Adjacency.filter_range_eq_singleton_iff.mpr (by simpa [Adjacency.OnlyStart] using hs)
    rw [size_adjacency] at hsingle
    rw [hsingle] at hstarts
    exact Or.inr (Or.inr (Or.inr ⟨h.acyclic_iff.mp hacyclic, hnone hline,
      by rw [← hstarts]; rfl, _, by rw [h.order_eq hnodes, horder]⟩))

/-! ### Verdicts -/

open Classical in
/-- **What is the matter with a graph**, and what is answered then. The rules are those of a list:
each one asks that none of those before it applies. -/
inductive Verdict (g : Graph) : Except GraphError (List String) → Prop
  /-- The first id that occurs earlier. -/
  | repeated {done rest : List String} {id : String} (hids : g.ids = done ++ id :: rest)
      (hfirst : done.Nodup) (hrepeat : id ∈ done) : g.Verdict (.error (.duplicateNode id))
  /-- No nodes. -/
  | empty (hnodes : g.nodes = []) : g.Verdict (.error .noStartNode)
  /-- The first edge with an unknown end, and the source if both are unknown. -/
  | unknown (hnodup : g.ids.Nodup) (hnodes : g.nodes ≠ []) {e : Edge}
      (hfirst : g.edges.find? (fun e => ¬Known g.ids e) = some e) :
      g.Verdict (.error (.unknownEdgeEndpoint e.source e.target (unknownEnd g.ids e)))
  /-- A cycle: all nodes are listed that cycles reach and that reach cycles. -/
  | cyclic (hnumbered : g.Numbered) (hnodes : g.nodes ≠ []) {a : String} (hcycle : g.OnCycle a) :
      g.Verdict (.error (.cycleDetected (g.ids.filter g.BetweenCycles)))
  /-- The first node with several edges into it or out of it, and how many there are. -/
  | branching (hnumbered : g.Numbered) (hnodes : g.nodes ≠ []) (hacyclic : ∀ a, ¬g.OnCycle a)
      {id : String} (hfirst : g.ids.find? g.branchesAt = some id) :
      g.Verdict (.error (.branchingNode id (g.inDegree id) (g.outDegree id)))
  /-- Several nodes that nothing leads to. -/
  | severalStarts (hnumbered : g.Numbered) (hnodes : g.nodes ≠ []) (hacyclic : ∀ a, ¬g.OnCycle a)
      (hline : ∀ a ∈ g.ids, g.inDegree a ≤ 1 ∧ g.outDegree a ≤ 1) (hseveral : 1 < g.starts.length) :
      g.Verdict (.error (.multipleStartNodes g.starts))
  /-- Nothing, and the graph is a chain. -/
  | chain (hnumbered : g.Numbered) (hnodes : g.nodes ≠ []) (hacyclic : ∀ a, ¬g.OnCycle a)
      (hline : ∀ a ∈ g.ids, g.inDegree a ≤ 1 ∧ g.outDegree a ≤ 1) (hstart : g.starts.length ≤ 1)
      {order : List String} (hchain : g.IsChain order) : g.Verdict (.ok order)

theorem find_branchesAt_eq_none_iff :
    g.ids.find? g.branchesAt = none ↔ ∀ a ∈ g.ids, g.inDegree a ≤ 1 ∧ g.outDegree a ≤ 1 := by
  simp [List.find?_eq_none, branchesAt]

/-- Some rule applies, and the order is its answer. -/
theorem verdict_order (g : Graph) : g.Verdict g.order := by
  rcases hrepeat : firstRepeat [] g.ids with _ | id
  · have hnodup : g.ids.Nodup := (firstRepeat_eq_none_iff.mp hrepeat).1
    by_cases hnodes : g.nodes = []
    · rw [order_of_nodes_eq_nil hnodes]
      exact .empty hnodes
    · rcases hfind : g.edges.find? (fun e => ¬Known g.ids e) with _ | e
      · have hnumbered : g.Numbered := ⟨hnodup, by simpa using hfind⟩
        rcases hnumbered.order_cases hnodes with ⟨⟨a, hcycle⟩, horder⟩ |
          ⟨hacyclic, id, hfirst, horder⟩ | ⟨hacyclic, hline, hseveral, horder⟩ |
          ⟨hacyclic, hline, hstart, order, horder⟩
        · exact horder ▸ .cyclic hnumbered hnodes hcycle
        · exact horder ▸ .branching hnumbered hnodes hacyclic hfirst
        · exact horder ▸ .severalStarts hnumbered hnodes hacyclic
            (find_branchesAt_eq_none_iff.mp hline) hseveral
        · exact horder ▸ .chain hnumbered hnodes hacyclic (find_branchesAt_eq_none_iff.mp hline)
            hstart.le (isChain_of_order_eq_ok horder)
      · rw [order_of_unknown hnodup hnodes hfind]
        exact .unknown hnodup hnodes hfind
  · rw [order_of_repeat hrepeat]
    obtain ⟨done, rest, hids, hfirst, -, hmem⟩ := firstRepeat_eq_some_iff.mp hrepeat
    exact .repeated hids hfirst (hmem.resolve_left List.not_mem_nil)

/-- **At most one rule applies**: the answer of a rule is the order. -/
theorem Verdict.order_eq {r : Except GraphError (List String)} (h : g.Verdict r) :
    g.order = r := by
  cases h with
  | repeated hids hfirst hrepeat =>
    exact order_of_repeat
      (firstRepeat_eq_some_iff.mpr ⟨_, _, hids, hfirst, by simp, Or.inr hrepeat⟩)
  | empty hnodes => exact order_of_nodes_eq_nil hnodes
  | unknown hnodup hnodes hfirst => exact order_of_unknown hnodup hnodes hfirst
  | cyclic hnumbered hnodes hcycle =>
    rcases hnumbered.order_cases hnodes with ⟨-, horder⟩ | ⟨hacyclic, -⟩ | ⟨hacyclic, -⟩ |
      ⟨hacyclic, -⟩
    · exact horder
    · exact absurd hcycle (hacyclic _)
    · exact absurd hcycle (hacyclic _)
    · exact absurd hcycle (hacyclic _)
  | branching hnumbered hnodes hacyclic hfirst =>
    rcases hnumbered.order_cases hnodes with ⟨⟨a, hcycle⟩, -⟩ | ⟨-, id, hfirst', horder⟩ |
      ⟨-, hnone, -⟩ | ⟨-, hnone, -⟩
    · exact absurd hcycle (hacyclic a)
    · obtain rfl := Option.some.inj (hfirst.symm.trans hfirst')
      exact horder
    · cases hnone.symm.trans hfirst
    · cases hnone.symm.trans hfirst
  | severalStarts hnumbered hnodes hacyclic hline hseveral =>
    have hnone := find_branchesAt_eq_none_iff.mpr hline
    rcases hnumbered.order_cases hnodes with ⟨⟨a, hcycle⟩, -⟩ | ⟨-, id, hfirst, -⟩ |
      ⟨-, -, -, horder⟩ | ⟨-, -, hstart, -⟩
    · exact absurd hcycle (hacyclic a)
    · cases hnone.symm.trans hfirst
    · exact horder
    · omega
  | chain _ _ _ _ _ hchain => exact hchain.order_eq_ok

/-- **The order of a graph is the answer of the one rule that applies to it.** A reported cycle
lists every node on a cycle. Missing and second ends and nodes that are not reached are never
reported, a missing start only for a graph without nodes; and once there are no cycles, no branches
and one start, the walk meets no node again. -/
theorem order_eq_iff_verdict (g : Graph) :
    (∀ r, g.order = r ↔ g.Verdict r) ∧
      (∀ nodes, g.order = .error (.cycleDetected nodes) → ∀ a, g.OnCycle a → a ∈ nodes) ∧
      g.order ≠ .error .noEndNode ∧
      (∀ nodes, g.order ≠ .error (.multipleEndNodes nodes)) ∧
      (∀ node, g.order ≠ .error (.disconnectedNode node)) ∧
      (g.order = .error .noStartNode → g.nodes = []) ∧
      (g.Numbered → g.adjacency.core = [] →
        (List.range g.nodes.length).find? g.adjacency.branches = none →
        ∀ start, theStart g.ids g.adjacency = .ok start →
        ∃ visited, walk g.ids g.adjacency (g.nodes.length + 1) [] start = .ok visited) := by
  have hverdict : ∀ {r}, g.order = r → g.Verdict r := fun h => h ▸ g.verdict_order
  refine ⟨fun r => ⟨hverdict, Verdict.order_eq⟩, ?_, ?_, ?_, ?_, ?_, ?_⟩
  · intro nodes h a hcycle
    cases hverdict h with
    | cyclic hnumbered =>
      obtain ⟨b, ⟨e, he, rfl, -⟩, -⟩ := TransGen.head'_iff.mp hcycle
      exact List.mem_filter.mpr ⟨(hnumbered.known e he).1, by simpa using hcycle.betweenCycles⟩
  · intro h
    cases hverdict h
  · intro nodes h
    cases hverdict h
  · intro node h
    cases hverdict h
  · intro h
    cases hverdict h with
    | empty hnodes => exact hnodes
  · intro hnumbered hcore hbranch start hstart
    have hacyclic := (Adjacency.core_eq_nil_iff hnumbered.coherent).mp hcore
    have hline := (Adjacency.find_branches_eq_none_iff hnumbered.coherent).mp hbranch
    obtain ⟨hs, -⟩ := Adjacency.theStart_eq_ok_iff.mp hstart
    obtain ⟨rest, hwalk, -⟩ :=
      exists_walk_from_start hnumbered.coherent hacyclic hline g.ids hs
    exact ⟨_, hwalk⟩

end Graph

end CallChain
