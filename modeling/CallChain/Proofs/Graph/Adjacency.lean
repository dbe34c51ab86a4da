import CallChain.Graph.Peeling
import Mathlib.Data.Fintype.Pigeonhole
import Mathlib.Logic.Relation
import Mathlib.Order.Monotone.Basic

/-!
# Multigraphs in both directions

A multigraph keeps its edges twice, as successors and as predecessors. What is said about one
direction is worth something for the other only if the two lists agree;
`CallChain.Adjacency.Coherent` says that they do, with multiplicities, and that no edge leaves the
numbers of the nodes. A multigraph made from a list of edges is coherent as soon as the edges are
in range (`CallChain.Adjacency.coherent_ofEdges`).

The first half is about cycles. In a finite set where every node has an arrow to another node of
the set, following arrows must come back to a node met before, so the set reaches a cycle
(`CallChain.exists_cycle_of_serial`). Nodes on cycles are the only obstacle to peeling.
-/

set_option autoImplicit false

namespace CallChain

open Relation

/-! ### Cycles in finite sets -/

/-- **A finite set without dead ends reaches a cycle** from each of its elements, and the cycle
lies in the set. -/
theorem exists_cycle_of_serial {α : Type} {r : α → α → Prop} {S : α → Prop}
    (hfin : Finite {a // S a}) (hserial : ∀ a, S a → ∃ b, r a b ∧ S b) {a : α} (ha : S a) :
    ∃ c, S c ∧ ReflTransGen r a c ∧ TransGen r c c := by
  choose next hnext hmem using hserial
  -- Following arrows for ever, one comes to some element twice.
  let path : ℕ → {a // S a} :=
    fun n => n.rec ⟨a, ha⟩ (fun _ b => ⟨next b.1 b.2, hmem b.1 b.2⟩)
  have hstep : ∀ i, TransGen r (path i).1 (path (i + 1)).1 :=
    fun i => TransGen.single (hnext _ (path i).2)
  have hlt : ∀ {i j : ℕ}, i < j → TransGen r (path i).1 (path j).1 :=
    fun h => Nat.rel_of_forall_rel_succ_of_lt (TransGen r) hstep h
  have hreach : ∀ i, ReflTransGen r a (path i).1 := by
    intro i
    rcases Nat.eq_zero_or_pos i with rfl | hi
    · exact ReflTransGen.refl
    · exact (hlt hi).to_reflTransGen
  obtain ⟨i, j, hne, heq⟩ := Finite.exists_ne_map_eq_of_infinite path
  have hcycle : ∀ {i j : ℕ}, path i = path j → i < j → TransGen r (path i).1 (path i).1 := by
    intro i j heq h
    have hback := hlt h
    rwa [← heq] at hback
  rcases Nat.lt_or_gt_of_ne hne with h | h
  · exact ⟨_, (path i).2, hreach i, hcycle heq h⟩
  · exact ⟨_, (path j).2, hreach j, hcycle heq.symm h⟩

namespace Adjacency

/-! ### Arrows -/

/-- **An arrow** from one node to another: at least one edge. -/
def Arrow (g : Adjacency) (u v : ℕ) : Prop := v ∈ g.after u

/-- **Both directions list the same edges**, each as often as the other, and all of them lead from
a node to a node. -/
structure Coherent (g : Adjacency) : Prop where
  count_eq : ∀ u v, (g.after u).count v = (g.before v).count u
  lt_size : ∀ {u v}, g.Arrow u v → u < g.size ∧ v < g.size

@[simp] theorem after_reverse (g : Adjacency) (u : ℕ) : g.reverse.after u = g.before u := rfl

@[simp] theorem before_reverse (g : Adjacency) (u : ℕ) : g.reverse.before u = g.after u := rfl

@[simp] theorem size_reverse (g : Adjacency) : g.reverse.size = g.size := rfl

namespace Coherent

variable {g : Adjacency}

theorem mem_before_iff (hg : g.Coherent) {u v : ℕ} : u ∈ g.before v ↔ g.Arrow u v := by
  rw [Arrow, ← List.count_pos_iff, ← List.count_pos_iff, hg.count_eq]

theorem arrow_reverse_iff (hg : g.Coherent) {u v : ℕ} : g.reverse.Arrow u v ↔ g.Arrow v u :=
  hg.mem_before_iff

theorem reverse (hg : g.Coherent) : g.reverse.Coherent where
  count_eq u v := (hg.count_eq v u).symm
  lt_size h := (hg.lt_size (hg.arrow_reverse_iff.mp h)).symm

end Coherent

/-! ### Multigraphs of lists of edges -/

variable {size : ℕ} {edges : List (ℕ × ℕ)}

theorem after_ofEdges {u : ℕ} (hu : u < size) :
    (ofEdges size edges).after u =
      edges.filterMap (fun e => if e.1 = u then some e.2 else none) := by
  simp [after, ofEdges, hu]

theorem after_ofEdges_of_le {u : ℕ} (hu : size ≤ u) : (ofEdges size edges).after u = [] := by
  simp [after, ofEdges, hu]

/-- A successor is listed as often as there are edges to it. -/
theorem count_after_ofEdges {u : ℕ} (hu : u < size) (v : ℕ) :
    ((ofEdges size edges).after u).count v = edges.count (u, v) := by
  rw [after_ofEdges hu]
  induction edges with
  | nil => rfl
  | cons e rest ih =>
    obtain ⟨a, b⟩ := e
    by_cases ha : a = u
    · simp [ha, List.count_cons, ih]
    · simp [ha, ih]

theorem length_after_ofEdges {u : ℕ} (hu : u < size) :
    ((ofEdges size edges).after u).length = (edges.map Prod.fst).count u := by
  rw [after_ofEdges hu]
  induction edges with
  | nil => rfl
  | cons e rest ih =>
    by_cases he : e.1 = u
    · simp [he, ih]
    · simp [he, ih]

/-- Turning the multigraph round turns its edges round, so predecessors are successors there. -/
theorem reverse_ofEdges (size : ℕ) (edges : List (ℕ × ℕ)) :
    (ofEdges size edges).reverse = ofEdges size (edges.map Prod.swap) := by
  simp [reverse, ofEdges, List.filterMap_map]

theorem before_ofEdges_of_le {v : ℕ} (hv : size ≤ v) : (ofEdges size edges).before v = [] := by
  rw [← after_reverse, reverse_ofEdges, after_ofEdges_of_le hv]

/-- A predecessor is listed as often as there are edges from it. -/
theorem count_before_ofEdges {v : ℕ} (hv : v < size) (u : ℕ) :
    ((ofEdges size edges).before v).count u = edges.count (u, v) := by
  rw [← after_reverse, reverse_ofEdges, count_after_ofEdges hv]
  exact List.count_map_of_injective edges Prod.swap Prod.swap_injective (u, v)

theorem length_before_ofEdges {v : ℕ} (hv : v < size) :
    ((ofEdges size edges).before v).length = (edges.map Prod.snd).count v := by
  rw [← after_reverse, reverse_ofEdges, length_after_ofEdges hv, List.map_map]
  rfl

/-- **A multigraph made from edges in range is coherent.** -/
theorem coherent_ofEdges (h : ∀ e ∈ edges, e.1 < size ∧ e.2 < size) :
    (ofEdges size edges).Coherent where
  count_eq u v := by
    -- Out of range there are no edges, and nothing is listed.
    have hzero : ¬(u < size ∧ v < size) → edges.count (u, v) = 0 :=
      fun hout => List.count_eq_zero_of_not_mem fun hmem => hout (h _ hmem)
    by_cases hu : u < size
    · by_cases hv : v < size
      · rw [count_after_ofEdges hu, count_before_ofEdges hv]
      · rw [count_after_ofEdges hu, before_ofEdges_of_le (by omega), hzero (by omega)]
        rfl
    · by_cases hv : v < size
      · rw [count_before_ofEdges hv, after_ofEdges_of_le (by omega), hzero (by omega)]
        rfl
      · rw [after_ofEdges_of_le (by omega), before_ofEdges_of_le (by omega)]
        rfl
  lt_size {u v} harrow := by
    by_cases hu : u < size
    · rw [Arrow, ← List.count_pos_iff, count_after_ofEdges hu, List.count_pos_iff] at harrow
      exact h _ harrow
    · rw [Arrow, after_ofEdges_of_le (by omega)] at harrow
      cases harrow

/-- The arrows of a list of edges in range are its edges. -/
theorem arrow_ofEdges_iff (h : ∀ e ∈ edges, e.1 < size ∧ e.2 < size) {u v : ℕ} :
    (ofEdges size edges).Arrow u v ↔ (u, v) ∈ edges := by
  constructor
  · intro harrow
    have hu : u < size := ((coherent_ofEdges h).lt_size harrow).1
    rwa [Arrow, ← List.count_pos_iff, count_after_ofEdges hu, List.count_pos_iff] at harrow
  · intro hmem
    rwa [Arrow, ← List.count_pos_iff, count_after_ofEdges (h _ hmem).1, List.count_pos_iff]

end Adjacency

end CallChain
