import CallChain.Proofs.Graph.Numbering

/-!
# The nodes reported for a cycle

A graph with a cycle is refused, and the refusal lists nodes. What it lists are the nodes that
survive peeling from both sides: in declared order, the **nodes between cycles**, which a cycle
reaches and which reach a cycle (`CallChain.Graph.nodes_of_cycleDetected`). Every node on a cycle is
one of them. The converse fails: a node that leads from one cycle to another is listed although it
is on no cycle (`CallChain.Graph.bridge_listed`). So the list is exactly that of the nodes on cycles
if and only if no cycle reaches another one through a node outside the cycles.

The walk at the end of the checks could report a cycle of its own; it never does, since it starts
only in graphs without cycles.
-/

set_option autoImplicit false

namespace CallChain

open Relation

namespace Graph

/-! ### Cycles of ids -/

/-- A node on a cycle: arrows lead from it back to it. -/
def OnCycle (g : Graph) (a : String) : Prop := TransGen g.Arrow a a

/-- **A node between cycles**: a cycle reaches it, and it reaches a cycle. -/
def BetweenCycles (g : Graph) (a : String) : Prop :=
  (∃ c, g.OnCycle c ∧ ReflTransGen g.Arrow c a) ∧ ∃ c, ReflTransGen g.Arrow a c ∧ g.OnCycle c

theorem OnCycle.betweenCycles {g : Graph} {a : String} (h : g.OnCycle a) : g.BetweenCycles a :=
  ⟨⟨a, h, .refl⟩, a, .refl, h⟩

namespace Numbered

variable {g : Graph}

theorem transGen_nameOf (h : g.Numbered) {u v : ℕ} (hpath : TransGen g.adjacency.Arrow u v) :
    TransGen g.Arrow (nameOf g.ids u) (nameOf g.ids v) :=
  TransGen.lift (nameOf g.ids) (fun _ _ => h.arrow_nameOf) _ _ hpath

theorem reflTransGen_nameOf (h : g.Numbered) {u v : ℕ}
    (hpath : ReflTransGen g.adjacency.Arrow u v) :
    ReflTransGen g.Arrow (nameOf g.ids u) (nameOf g.ids v) :=
  ReflTransGen.lift (nameOf g.ids) (fun _ _ => h.arrow_nameOf) _ _ hpath

theorem transGen_idxOf (h : g.Numbered) {a b : String} (hpath : TransGen g.Arrow a b) :
    TransGen g.adjacency.Arrow (g.ids.idxOf a) (g.ids.idxOf b) :=
  TransGen.lift (g.ids.idxOf ·) (fun _ _ => h.arrow_idxOf) _ _ hpath

theorem reflTransGen_idxOf (h : g.Numbered) {a b : String} (hpath : ReflTransGen g.Arrow a b) :
    ReflTransGen g.adjacency.Arrow (g.ids.idxOf a) (g.ids.idxOf b) :=
  ReflTransGen.lift (g.ids.idxOf ·) (fun _ _ => h.arrow_idxOf) _ _ hpath

/-- Being between cycles is the same for a node and for its number. -/
theorem betweenCycles_nameOf_iff (h : g.Numbered) {u : ℕ} (hu : u < g.nodes.length) :
    g.adjacency.BetweenCycles u ↔ g.BetweenCycles (nameOf g.ids u) := by
  constructor
  · rintro ⟨⟨c, hc, hcu⟩, d, hud, hd⟩
    exact ⟨⟨_, h.transGen_nameOf hc, h.reflTransGen_nameOf hcu⟩,
      _, h.reflTransGen_nameOf hud, h.transGen_nameOf hd⟩
  · rintro ⟨⟨c, hc, hcu⟩, d, hud, hd⟩
    have hback : g.ids.idxOf (nameOf g.ids u) = u :=
      idxOf_nameOf h.nodup ((length_ids g).symm ▸ hu)
    have hcu' := h.reflTransGen_idxOf hcu
    have hud' := h.reflTransGen_idxOf hud
    rw [hback] at hcu' hud'
    exact ⟨⟨_, h.transGen_idxOf hc, hcu'⟩, _, hud', h.transGen_idxOf hd⟩

open Classical in
/-- The names of the core are the nodes between cycles. -/
theorem map_nameOf_core (h : g.Numbered) :
    g.adjacency.core.map (nameOf g.ids) = g.ids.filter g.BetweenCycles := by
  conv_rhs => rw [← map_nameOf_range g.ids]
  rw [Adjacency.core_eq_filter h.coherent, List.filter_map, length_ids]
  refine congrArg _ (List.filter_congr fun u hu => ?_)
  rw [Function.comp_apply, decide_eq_decide]
  exact h.betweenCycles_nameOf_iff (List.mem_range.mp hu)

end Numbered

/-! ### The report -/

/-- Starts and ends that are missing or several are no report of a cycle. -/
theorem theStart_ne_cycleDetected (ids : List String) (a : Adjacency) (nodes : List String) :
    theStart ids a ≠ .error (.cycleDetected nodes) := by
  rw [theStart]
  split
  · simp
  · split <;> simp
  · simp

/-- **Only the core is reported as a cycle**: the walk starts in graphs without cycles and never
meets a node again. -/
theorem order_eq_cycleDetected_iff {g : Graph} {nodes : List String} :
    g.order = .error (.cycleDetected nodes) ↔
      g.Numbered ∧ g.adjacency.core ≠ [] ∧ nodes = g.adjacency.core.map (nameOf g.ids) := by
  constructor
  · intro h
    rcases order_cases g with ⟨-, _, herr⟩ | ⟨-, herr⟩ | ⟨-, _, _, _, herr⟩ |
      ⟨hnumbered, -, horder⟩
    · cases herr.symm.trans h
    · cases herr.symm.trans h
    · cases herr.symm.trans h
    · rw [horder] at h
      -- Every other refusal has a name of its own.
      rcases orderOf_cases hnumbered.coherent g.ids with ⟨hcore, herr⟩ | ⟨-, _, -, herr⟩ |
        ⟨-, -, _, hstart, herr⟩ | ⟨-, -, _, _, -, -, -, -, hok⟩
      · cases herr.symm.trans h
        exact ⟨hnumbered, hcore, rfl⟩
      · cases herr.symm.trans h
      · cases herr.symm.trans h
        exact absurd hstart (theStart_ne_cycleDetected _ _ _)
      · cases hok.symm.trans h
  · rintro ⟨hnumbered, hcore, rfl⟩
    have hnodes : g.nodes ≠ [] := by
      intro hnil
      refine hcore (List.eq_nil_iff_forall_not_mem.mpr fun u hu => ?_)
      have hlt := List.mem_range.mp (List.mem_of_mem_filter hu)
      rw [size_adjacency, hnil] at hlt
      cases hlt
    rw [hnumbered.order_eq hnodes]
    rcases orderOf_cases hnumbered.coherent g.ids with ⟨-, herr⟩ | ⟨hacyclic, -⟩ |
      ⟨hacyclic, -⟩ | ⟨hacyclic, -⟩
    · exact herr
    · exact absurd ((Adjacency.core_eq_nil_iff hnumbered.coherent).mpr hacyclic) hcore
    · exact absurd ((Adjacency.core_eq_nil_iff hnumbered.coherent).mpr hacyclic) hcore
    · exact absurd ((Adjacency.core_eq_nil_iff hnumbered.coherent).mpr hacyclic) hcore

open Classical in
/-- **The nodes that are reported are those between cycles**, in declared order. They are exactly
the nodes on cycles if and only if no node off the cycles leads from one cycle to another. -/
theorem nodes_of_cycleDetected (g : Graph) (nodes : List String)
    (h : g.order = .error (.cycleDetected nodes)) :
    nodes = g.ids.filter g.BetweenCycles ∧
      (nodes = g.ids.filter g.OnCycle ↔ ∀ a ∈ g.ids, g.BetweenCycles a → g.OnCycle a) := by
  obtain ⟨hnumbered, -, rfl⟩ := order_eq_cycleDetected_iff.mp h
  rw [hnumbered.map_nameOf_core]
  refine ⟨rfl, ?_⟩
  constructor
  · intro heq a ha hbetween
    have hmem : a ∈ g.ids.filter g.OnCycle :=
      heq ▸ List.mem_filter.mpr ⟨ha, by simpa using hbetween⟩
    simpa using (List.mem_filter.mp hmem).2
  · intro hon
    refine List.filter_congr fun a ha => ?_
    rw [decide_eq_decide]
    exact ⟨hon a ha, OnCycle.betweenCycles⟩

/-- A way into one cycle. -/
def tail : Graph where
  id := "tail"
  name := "tail"
  nodes := [⟨"start", "call", []⟩, ⟨"a", "call", []⟩, ⟨"b", "call", []⟩]
  edges := [⟨"start", "a", []⟩, ⟨"a", "b", []⟩, ⟨"b", "a", []⟩]

open Classical in
theorem nodes_of_cycleDetected_tail :
    tail.order = .error (.cycleDetected ["a", "b"]) ∧
      ["a", "b"] = tail.ids.filter tail.BetweenCycles ∧
      (["a", "b"] = tail.ids.filter tail.OnCycle ↔
        ∀ a ∈ tail.ids, tail.BetweenCycles a → tail.OnCycle a) := by
  have h : tail.order = .error (.cycleDetected ["a", "b"]) := by decide +kernel
  exact ⟨h, nodes_of_cycleDetected tail ["a", "b"] h⟩

/-- Two cycles, and a node that leads from one to the other. -/
def bridge : Graph where
  id := "bridge"
  name := "bridge"
  nodes := [⟨"a", "call", []⟩, ⟨"b", "call", []⟩, ⟨"m", "call", []⟩, ⟨"c", "call", []⟩,
    ⟨"d", "call", []⟩]
  edges := [⟨"a", "b", []⟩, ⟨"b", "a", []⟩, ⟨"b", "m", []⟩, ⟨"m", "c", []⟩, ⟨"c", "d", []⟩,
    ⟨"d", "c", []⟩]

/-- **A node that is on no cycle is reported** if it leads from one cycle to another. -/
theorem bridge_listed :
    bridge.order = .error (.cycleDetected ["a", "b", "m", "c", "d"]) ∧ ¬bridge.OnCycle "m" := by
  refine ⟨by decide +kernel, fun hcycle => ?_⟩
  -- Behind the bridge there is only the second cycle.
  have hnext : ∀ e ∈ bridge.edges, e.source ∈ ["m", "c", "d"] → e.target ∈ ["c", "d"] := by
    decide
  have hbehind : ∀ b, TransGen bridge.Arrow "m" b → b ∈ ["c", "d"] := by
    intro b hpath
    induction hpath with
    | single harrow =>
      obtain ⟨e, he, hsource, rfl⟩ := harrow
      exact hnext e he (hsource ▸ List.mem_cons_self)
    | tail _ harrow ih =>
      obtain ⟨e, he, rfl, rfl⟩ := harrow
      exact hnext e he (List.mem_cons_of_mem "m" ih)
  exact absurd (hbehind "m" hcycle) (by decide)

end Graph

end CallChain
