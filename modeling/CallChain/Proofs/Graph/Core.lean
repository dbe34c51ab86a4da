import CallChain.Proofs.Graph.Walk
import Mathlib.Order.Bounds.Basic

/-!
# Peeling between two steps and at its end

A pass removes the first node of the queue and then counts it off at its successors, one after
another. `CallChain.Peeling.Passing` are all the states on the way, also those in the middle of a
step, where a count could go below zero or a node could join the queue a second time. Neither
happens in a multigraph whose lists are transposes of each other (`CallChain.Peeling.Safe`): a count
stands for the predecessors that are there and those that are still to be counted off, and a node
that was removed is counted off no more.

The second pass starts from the flags that the first one leaves behind, so it is safe for the same
reason: nothing was asked of the flags. What both passes leave over is the largest set in which
every node has neighbours on both sides (`CallChain.Adjacency.isGreatest_core`).
-/

set_option autoImplicit false

namespace CallChain

open Relation

namespace Peeling

/-! ### The states of a pass -/

/-- **A pass under way.** The nodes `pending` are successors of the node removed last at which it is
still to be counted off. The nodes `done` were removed in this pass, in this order. Whatever joins
the queue joins it at its end and leaves it at its front, so the nodes that have joined it so far
are `done` and those in the queue. -/
inductive Passing (g : Adjacency) (removed : Array Bool) : Peeling → List ℕ → List ℕ → Prop
  /-- Nothing is removed yet. -/
  | start : Passing g removed (start g removed) [] []
  /-- The first node of the queue goes. -/
  | remove {p : Peeling} {u : ℕ} {rest done : List ℕ} (h : Passing g removed p [] done)
      (hqueue : p.queue = u :: rest) :
      Passing g removed (p.remove u rest) (g.after u) (done ++ [u])
  /-- It is counted off at one of its successors. -/
  | release {p : Peeling} {v : ℕ} {pending done : List ℕ}
      (h : Passing g removed p (v :: pending) done) :
      Passing g removed (p.release v) pending done

/-- **A safe pass**: no index is out of range, no count goes below zero, no node joins the queue
twice, and the queue runs empty in time. -/
structure Safe (g : Adjacency) (removed : Array Bool) : Prop where
  in_range : ∀ {p v pending done}, Passing g removed p (v :: pending) done →
    v < p.removed.size ∧ v < p.remaining.size
  /-- A node that is still there when it is counted off has something to be counted off. -/
  count_pos : ∀ {p v pending done}, Passing g removed p (v :: pending) done → p.Live v →
    0 < p.count v
  /-- What joins the queue are nodes, each once. -/
  nodup : ∀ {p pending done}, Passing g removed p pending done →
    (done ++ p.queue).Nodup ∧ ∀ v ∈ done ++ p.queue, v < g.size
  /-- So no more nodes are removed than there are. -/
  length_le : ∀ {p pending done}, Passing g removed p pending done → done.length ≤ g.size
  /-- Every run passes through these states, -/
  exists_passing : ∀ n, ∃ done, Passing g removed (run g n (start g removed)) [] done
  /-- and where the pass stops nothing is left to do. -/
  ends : (run g g.size (start g removed)).queue = []

section Passing

variable {g : Adjacency} {removed : Array Bool} {p q : Peeling} {pending done : List ℕ}

/-- Counting off what is pending completes a step. -/
theorem Passing.foldl_release (h : Passing g removed p pending done) :
    Passing g removed (pending.foldl Peeling.release p) [] done := by
  induction pending generalizing p with
  | nil => exact h
  | cons v more ih => exact ih h.release

/-- **The states between two steps are those of a run.** -/
theorem Passing.exists_run (h : Passing g removed p [] done) (n : ℕ) :
    ∃ done', Passing g removed (run g n p) [] done' := by
  induction n generalizing p done with
  | zero => exact ⟨done, h⟩
  | succ n ih =>
    rw [run]
    rcases hstep : p.step g with _ | q
    · exact ⟨done, h⟩
    · obtain ⟨u, rest, hqueue, rfl⟩ := step_eq_some_iff.mp hstep
      exact ih (h.remove hqueue).foldl_release

/-- **The invariant of the states**: the books are balanced, and what was removed was there once and
is there no more. -/
structure Accounted (g : Adjacency) (p : Peeling) (pending done : List ℕ) : Prop where
  balanced : Balanced g p pending
  pending_lt : ∀ v ∈ pending, v < g.size
  done_nodup : done.Nodup
  done_gone : ∀ v ∈ done, v < g.size ∧ ¬p.Live v

theorem Passing.accounted (hg : g.Coherent) (hsize : removed.size = g.size)
    (h : Passing g removed p pending done) : Accounted g p pending done := by
  induction h with
  | start => exact ⟨balanced_start g hsize, by simp, List.nodup_nil, by simp⟩
  | @remove p u rest done _ hqueue ih =>
    obtain ⟨hu, hlive, -⟩ := (ih.balanced.mem_queue_iff u).mp (hqueue ▸ List.mem_cons_self)
    have hiff := live_remove_iff (ih.balanced.size_removed ▸ hu) rest
    refine ⟨ih.balanced.remove hg hqueue, fun v hv => (hg.lt_size hv).2, ?_, ?_⟩
    · -- The node is still there, and those removed before are not.
      refine ih.done_nodup.append (List.nodup_singleton u) (List.disjoint_singleton.mpr ?_)
      exact fun hmem => (ih.done_gone u hmem).2 hlive
    · intro v hv
      rcases List.mem_append.mp hv with hold | hnew
      · exact ⟨(ih.done_gone v hold).1, fun hc => (ih.done_gone v hold).2 ((hiff v).mp hc).1⟩
      · obtain rfl := List.mem_singleton.mp hnew
        exact ⟨hu, fun hc => ((hiff v).mp hc).2 rfl⟩
  | @release p v pending done _ ih =>
    obtain ⟨hv, hpending⟩ := List.forall_mem_cons.mp ih.pending_lt
    refine ⟨ih.balanced.release hv, hpending, ih.done_nodup, fun w hw => ?_⟩
    rw [live_release_iff]
    exact ih.done_gone w hw

/-- What was removed is not in the queue, so nothing has joined it twice. -/
theorem Accounted.nodup (h : Accounted g p pending done) : (done ++ p.queue).Nodup := by
  refine h.done_nodup.append h.balanced.queue_nodup fun v hdone hqueue => ?_
  exact (h.done_gone v hdone).2 ((h.balanced.mem_queue_iff v).mp hqueue).2.1

theorem Accounted.lt_size (h : Accounted g p pending done) {v : ℕ} (hv : v ∈ done ++ p.queue) :
    v < g.size := by
  rcases List.mem_append.mp hv with hdone | hqueue
  · exact (h.done_gone v hdone).1
  · exact ((h.balanced.mem_queue_iff v).mp hqueue).1

theorem Accounted.length_le (h : Accounted g p pending done) : done.length ≤ g.size := by
  have hsub : done ⊆ List.range g.size := fun v hv => List.mem_range.mpr (h.done_gone v hv).1
  exact (h.done_nodup.subperm hsub).length_le.trans_eq List.length_range

/-- **A pass over a coherent multigraph is safe**, whatever was removed before. -/
theorem safe (hg : g.Coherent) (hsize : removed.size = g.size) : Safe g removed where
  in_range h := by
    obtain ⟨hbalanced, hpending, -⟩ := h.accounted hg hsize
    have hv := hpending _ List.mem_cons_self
    exact ⟨hbalanced.size_removed ▸ hv, hbalanced.size_remaining ▸ hv⟩
  count_pos h hlive := by
    obtain ⟨hbalanced, hpending, -⟩ := h.accounted hg hsize
    rw [hbalanced.count_eq _ (hpending _ List.mem_cons_self) hlive, List.count_cons_self]
    omega
  nodup h := ⟨(h.accounted hg hsize).nodup, fun _ => (h.accounted hg hsize).lt_size⟩
  length_le h := (h.accounted hg hsize).length_le
  exists_passing := Passing.start.exists_run
  ends := queue_run_eq_nil hg (balanced_start g hsize)
    ((List.length_filter_le _ _).trans_eq List.length_range)

end Passing

end Peeling

/-! ### Neighbours on both sides -/

namespace Adjacency

variable {g : Adjacency}

/-- **A set in which every node has a predecessor and a successor.** -/
def TwoSided (g : Adjacency) (S : Set ℕ) : Prop :=
  ∀ v ∈ S, (∃ u ∈ S, g.Arrow u v) ∧ ∃ w ∈ S, g.Arrow v w

theorem twoSided_iff (hg : g.Coherent) {S : Set ℕ} :
    g.TwoSided S ↔ g.Fed (· ∈ S) ∧ g.reverse.Fed (· ∈ S) := by
  have hbefore : ∀ v, (∃ u ∈ S, g.Arrow u v) ↔ ∃ u ∈ g.before v, u ∈ S :=
    fun v => exists_congr fun u => by rw [hg.mem_before_iff, and_comm]
  have hafter : ∀ v, (∃ w ∈ S, g.Arrow v w) ↔ ∃ w ∈ g.reverse.before v, w ∈ S :=
    fun v => exists_congr fun w => and_comm
  simp only [TwoSided, Fed, hbefore, hafter, ← forall_and]

/-- The nodes between cycles are a fed set: what reaches them reaches a cycle, too. -/
theorem fed_betweenCycles (hg : g.Coherent) : g.Fed g.BetweenCycles := by
  rintro v ⟨hfrom, c, hvc, hc⟩
  obtain ⟨u, hu, hreached⟩ := fed_reached hg v hfrom
  exact ⟨u, hu, hreached, c, hvc.head (hg.mem_before_iff.mp hu), hc⟩

/-- **The core is the largest set with neighbours on both sides.** In such a set one gets back to a
cycle and on to a cycle. -/
theorem isGreatest_core (hg : g.Coherent) : IsGreatest {S | g.TwoSided S} {v | v ∈ g.core} := by
  have hcore : {v | v ∈ g.core} = {v | g.BetweenCycles v} := Set.ext fun _ => mem_core_iff hg
  rw [hcore]
  refine ⟨(twoSided_iff hg).mpr ⟨fed_betweenCycles hg, fed_reverse_betweenCycles⟩, ?_⟩
  intro S hS v hv
  obtain ⟨hfed, hreverse⟩ := (twoSided_iff hg).mp hS
  exact ⟨exists_cycle_of_fed hg hfed hv, exists_cycle_of_fed_reverse hg hreverse hv⟩

/-- **Lists that are transposes of each other**: both have one list for each node, and a node is
among the successors of another as often as that one is among its predecessors. -/
structure Transposed (g : Adjacency) : Prop where
  size_successors : g.successors.size = g.size
  size_predecessors : g.predecessors.size = g.size
  count_eq : ∀ u v, (g.after u).count v = (g.before v).count u

theorem lt_size_of_mem_getD {lists : Array (List ℕ)} {u v : ℕ} (h : v ∈ lists[u]?.getD []) :
    u < lists.size := by
  by_contra hle
  rw [Array.getElem?_eq_none (Nat.le_of_not_lt hle)] at h
  cases h

/-- Transposes list nodes only. -/
theorem Transposed.coherent (h : g.Transposed) : g.Coherent where
  count_eq := h.count_eq
  lt_size {u v} harrow := by
    have hback : u ∈ g.before v := by
      rw [← List.count_pos_iff, ← h.count_eq, List.count_pos_iff]
      exact harrow
    exact ⟨h.size_successors ▸ lt_size_of_mem_getD harrow,
      h.size_predecessors ▸ lt_size_of_mem_getD hback⟩

/-- A list of edges between nodes gives transposes. -/
theorem transposed_ofEdges {size : ℕ} {edges : List (ℕ × ℕ)}
    (h : ∀ e ∈ edges, e.1 < size ∧ e.2 < size) : (ofEdges size edges).Transposed where
  size_successors := by simp [ofEdges]
  size_predecessors := by simp [ofEdges]
  count_eq := (coherent_ofEdges h).count_eq

/-- **Peeling is safe and finds the largest set with neighbours on both sides.** For lists that are
transposes of each other both passes are safe, the second one with the flags of the first. What
survives both is listed in increasing order; it is the largest set in which every node has a
predecessor and a successor, and it is empty exactly if there is no cycle. -/
theorem Transposed.core_laws (h : g.Transposed) :
    (Peeling.Safe g (List.replicate g.size false).toArray ∧
      Peeling.Safe g.reverse (Peeling.pass g (List.replicate g.size false).toArray)) ∧
    g.core.Pairwise (· < ·) ∧ IsGreatest {S | g.TwoSided S} {v | v ∈ g.core} ∧
    (g.core = [] ↔ ∀ v, ¬TransGen g.Arrow v v) := by
  have hg := h.coherent
  refine ⟨⟨Peeling.safe hg (by simp), Peeling.safe hg.reverse ?_⟩, ?_, isGreatest_core hg,
    core_eq_nil_iff hg⟩
  · exact Peeling.size_pass hg (by simp)
  · exact List.pairwise_lt_range.filter _

/-- Two edges from `0` to `1`, loops at `1` and at `3`, and a way between the loops. -/
def twoLoops : Adjacency := ofEdges 5 [(0, 1), (1, 1), (1, 2), (0, 1), (2, 3), (3, 3), (3, 4)]

/-- The node on the way between the loops is in the core, the nodes before and behind are not. -/
theorem twoLoops_core_laws :
    twoLoops.core = [1, 2, 3] ∧ IsGreatest {S | twoLoops.TwoSided S} {v | v ∈ [1, 2, 3]} := by
  have hcore : twoLoops.core = [1, 2, 3] := by decide
  obtain ⟨-, -, hgreatest, -⟩ := Transposed.core_laws (transposed_ofEdges (by decide) :
    twoLoops.Transposed)
  exact ⟨hcore, hcore ▸ hgreatest⟩

end Adjacency

end CallChain
