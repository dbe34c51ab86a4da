import CallChain.Proofs.Graph.Adjacency

/-!
# What a peeling leaves over

A pass removes a node once all its predecessors are gone. Its bookkeeping is a count of the
predecessors that are still there and a queue of the nodes whose count is zero.
`CallChain.Peeling.Balanced` is the invariant of that bookkeeping, stated so that it also holds in
the middle of a step, when some successors of the node just removed are still to be counted off.
A step removes one more node, so a pass ends with an empty queue.

A set of nodes each of which has a predecessor in the set (`CallChain.Adjacency.Fed`) never loses
its first node, and what a finished pass leaves over is such a set. So a pass leaves over the
largest fed set that it finds (`CallChain.Peeling.survives_pass_iff`), and peeling from both sides
leaves over **the nodes between cycles**: those that a cycle reaches and that reach a cycle
(`CallChain.Adjacency.mem_core_iff`).
-/

set_option autoImplicit false

namespace CallChain

open Relation

/-- **A fed set** of nodes: each has a predecessor in the set. -/
def Adjacency.Fed (g : Adjacency) (S : ℕ → Prop) : Prop := ∀ v, S v → ∃ u ∈ g.before v, S u

namespace Peeling

/-- Whether a node is still there. -/
def Live (p : Peeling) (u : ℕ) : Prop := p.isRemoved u = false

instance (p : Peeling) (u : ℕ) : Decidable (p.Live u) := inferInstanceAs (Decidable (_ = _))

/-- The predecessors of a node that are still there. -/
def liveBefore (g : Adjacency) (p : Peeling) (v : ℕ) : List ℕ :=
  (g.before v).filter (fun u => !p.isRemoved u)

/-- **The invariant of a pass** when the nodes `pending` are still to be counted off: the count of
a node is the number of its predecessors that are there, plus what is pending, and the queue holds
the nodes whose count is zero, each once. -/
structure Balanced (g : Adjacency) (p : Peeling) (pending : List ℕ) : Prop where
  size_removed : p.removed.size = g.size
  size_remaining : p.remaining.size = g.size
  count_eq : ∀ v < g.size, p.Live v → p.count v = (liveBefore g p v).length + pending.count v
  queue_nodup : p.queue.Nodup
  mem_queue_iff : ∀ v, v ∈ p.queue ↔ v < g.size ∧ p.Live v ∧ p.count v = 0

/-! ### Counting off -/

section Release

variable (p : Peeling) (v : ℕ)

@[simp] theorem removed_release : (p.release v).removed = p.removed := by
  unfold release
  split <;> rfl

@[simp] theorem live_release_iff (u : ℕ) : (p.release v).Live u ↔ p.Live u := by
  simp [Live, isRemoved]

@[simp] theorem liveBefore_release (g : Adjacency) (u : ℕ) :
    liveBefore g (p.release v) u = liveBefore g p u := by
  simp [liveBefore, isRemoved]

@[simp] theorem size_remaining_release : (p.release v).remaining.size = p.remaining.size := by
  unfold release
  split <;> simp

variable {p v}

theorem release_of_removed (h : ¬p.Live v) : p.release v = p := by
  rw [release, if_pos (by simpa [Live] using h)]

theorem count_release (h : p.Live v) (hv : v < p.remaining.size) (u : ℕ) :
    (p.release v).count u = if u = v then p.count v - 1 else p.count u := by
  rw [release, if_neg (by simpa [Live] using h)]
  by_cases hu : u = v
  · subst hu
    simp [count, hv]
  · rw [if_neg hu]
    simp [count, Array.getElem?_setIfInBounds_ne (Ne.symm hu)]

theorem queue_release (h : p.Live v) :
    (p.release v).queue = if p.count v - 1 = 0 then p.queue ++ [v] else p.queue := by
  rw [release, if_neg (by simpa [Live] using h)]

end Release

/-- Counting one pending node off keeps the balance. -/
theorem Balanced.release {g : Adjacency} {p : Peeling} {v : ℕ} {pending : List ℕ}
    (h : Balanced g p (v :: pending)) (hv : v < g.size) : Balanced g (p.release v) pending := by
  by_cases hlive : p.Live v
  · have hcount : p.count v = (liveBefore g p v).length + pending.count v + 1 := by
      rw [h.count_eq v hv hlive, List.count_cons_self, Nat.add_assoc]
    have hrelease := count_release hlive (h.size_remaining ▸ hv)
    refine ⟨by simpa using h.size_removed, by simpa using h.size_remaining, ?_, ?_, ?_⟩
    · intro u hu hulive
      rw [live_release_iff] at hulive
      rw [hrelease, liveBefore_release]
      by_cases huv : u = v
      · subst huv
        rw [if_pos rfl]
        omega
      · rw [if_neg huv, h.count_eq u hu hulive, List.count_cons_of_ne (Ne.symm huv)]
    · rw [queue_release hlive]
      split
      · refine List.Nodup.append h.queue_nodup (List.nodup_singleton v) ?_
        simp only [List.disjoint_singleton, h.mem_queue_iff]
        omega
      · exact h.queue_nodup
    · intro u
      rw [live_release_iff, hrelease, queue_release hlive]
      by_cases huv : u = v
      · subst huv
        rw [if_pos rfl]
        split
        · simp_all
        · simp [h.mem_queue_iff]
          omega
      · rw [if_neg huv, ← h.mem_queue_iff]
        split <;> simp [huv]
  · -- A node that is gone is not counted off, and it is none of those whose count matters.
    rw [release_of_removed hlive]
    refine { h with count_eq := fun u hu hulive => ?_ }
    have hne : v ≠ u := fun he => hlive (he ▸ hulive)
    rw [h.count_eq u hu hulive, List.count_cons_of_ne hne]

/-- Counting all pending nodes off settles the balance. -/
theorem Balanced.foldl_release {g : Adjacency} {p : Peeling} {pending : List ℕ}
    (h : Balanced g p pending) (hlt : ∀ v ∈ pending, v < g.size) :
    Balanced g (pending.foldl Peeling.release p) [] := by
  induction pending generalizing p with
  | nil => exact h
  | cons v rest ih =>
    exact ih (h.release (hlt v List.mem_cons_self)) fun w hw => hlt w (List.mem_cons_of_mem v hw)

@[simp] theorem live_foldl_release_iff (p : Peeling) (vs : List ℕ) (u : ℕ) :
    (vs.foldl release p).Live u ↔ p.Live u := by
  induction vs generalizing p with
  | nil => rfl
  | cons v rest ih => rw [List.foldl_cons, ih, live_release_iff]

/-! ### Steps -/

/-- Takes the first node off the queue and marks it as gone. -/
def remove (p : Peeling) (u : ℕ) (rest : List ℕ) : Peeling :=
  { p with removed := p.removed.setIfInBounds u true, queue := rest }

section Step

variable {g : Adjacency} {p q : Peeling}

theorem step_eq_some_iff :
    p.step g = some q ↔
      ∃ u rest, p.queue = u :: rest ∧ q = (g.after u).foldl release (p.remove u rest) := by
  unfold step
  rcases hq : p.queue with _ | ⟨u, rest⟩
  · simp
  · simp [remove, eq_comm]

theorem live_remove_iff {u : ℕ} (hu : u < p.removed.size) (rest : List ℕ) (v : ℕ) :
    (p.remove u rest).Live v ↔ p.Live v ∧ v ≠ u := by
  by_cases hv : v = u
  · subst hv
    simp [Live, isRemoved, remove, hu]
  · simp [Live, isRemoved, remove, hv, Array.getElem?_setIfInBounds_ne (Ne.symm hv)]

/-- What a node that goes away takes from the live predecessors of another. -/
theorem length_liveBefore_remove {u : ℕ} (hu : u < p.removed.size) (hlive : p.Live u)
    (rest : List ℕ) (v : ℕ) :
    (liveBefore g p v).length =
      (liveBefore g (p.remove u rest) v).length + (g.before v).count u := by
  have hiff := live_remove_iff hu rest
  simp only [liveBefore]
  induction g.before v with
  | nil => rfl
  | cons w ws ih =>
    by_cases hw : w = u
    · have h1 : p.isRemoved w = false := hw ▸ hlive
      have h2 : (p.remove u rest).isRemoved w = true := by
        have := (hiff w).not.mpr (fun hc => hc.2 hw)
        simpa [Live] using this
      rw [List.filter_cons_of_pos (by simpa using h1), List.filter_cons_of_neg (by simpa using h2),
        hw, List.count_cons_self, List.length_cons, ih]
      omega
    · have hsame : (p.remove u rest).isRemoved w = p.isRemoved w := by
        simp [isRemoved, remove, Array.getElem?_setIfInBounds_ne (Ne.symm hw)]
      rw [List.filter_cons, List.filter_cons, hsame, List.count_cons_of_ne hw]
      split
      · rw [List.length_cons, List.length_cons, ih]
        omega
      · exact ih

/-- **A removal keeps the balance**: it leaves the successors of the node pending. -/
theorem Balanced.remove (hg : g.Coherent) (h : Balanced g p []) {u : ℕ} {rest : List ℕ}
    (hqueue : p.queue = u :: rest) : Balanced g (p.remove u rest) (g.after u) := by
  obtain ⟨hu, hlive, hzero⟩ := (h.mem_queue_iff u).mp (hqueue ▸ List.mem_cons_self)
  have hu' : u < p.removed.size := h.size_removed ▸ hu
  have hnodup : u ∉ rest ∧ rest.Nodup := List.nodup_cons.mp (hqueue ▸ h.queue_nodup)
  refine ⟨by simpa [Peeling.remove] using h.size_removed, h.size_remaining, ?_, hnodup.2, ?_⟩
  · intro v hv hvlive
    have hcount := h.count_eq v hv ((live_remove_iff hu' rest v).mp hvlive).1
    rw [List.count_nil, length_liveBefore_remove hu' hlive rest v, ← hg.count_eq] at hcount
    exact hcount
  · intro v
    have hmem : v ∈ rest ↔ v ∈ p.queue ∧ v ≠ u := by
      rw [hqueue, List.mem_cons]
      constructor
      · exact fun hv => ⟨Or.inr hv, fun he => hnodup.1 (he ▸ hv)⟩
      · exact fun hv => hv.1.resolve_left hv.2
    rw [live_remove_iff hu' rest v]
    change v ∈ rest ↔ v < g.size ∧ (p.Live v ∧ v ≠ u) ∧ p.count v = 0
    rw [hmem, h.mem_queue_iff]
    tauto

/-- **A step keeps the balance.** -/
theorem Balanced.step (hg : g.Coherent) (h : Balanced g p []) (hstep : p.step g = some q) :
    Balanced g q [] := by
  obtain ⟨u, rest, hqueue, rfl⟩ := step_eq_some_iff.mp hstep
  exact (h.remove hg hqueue).foldl_release fun v hv => (hg.lt_size hv).2

/-- A step removes a node that was there and all of whose predecessors were gone; the others stay
as they are. -/
theorem exists_live_step_iff (h : Balanced g p []) (hstep : p.step g = some q) :
    ∃ u < g.size, p.Live u ∧ (∀ w ∈ g.before u, ¬p.Live w) ∧ ∀ v, q.Live v ↔ p.Live v ∧ v ≠ u := by
  obtain ⟨u, rest, hqueue, rfl⟩ := step_eq_some_iff.mp hstep
  obtain ⟨hu, hlive, hzero⟩ := (h.mem_queue_iff u).mp (hqueue ▸ List.mem_cons_self)
  have hnone : liveBefore g p u = [] := by
    have hcount := h.count_eq u hu hlive
    rw [hzero, List.count_nil] at hcount
    exact List.length_eq_zero_iff.mp hcount.symm
  refine ⟨u, hu, hlive, fun w hw hwlive => ?_, fun v => ?_⟩
  · rw [liveBefore, List.filter_eq_nil_iff] at hnone
    exact hnone w hw (by simpa [Live] using hwlive)
  · rw [live_foldl_release_iff, live_remove_iff (h.size_removed ▸ hu)]

end Step

/-! ### Runs -/

section Run

variable {g : Adjacency} {p q : Peeling}

/-- The nodes that are still there, in increasing order. -/
def liveNodes (g : Adjacency) (p : Peeling) : List ℕ :=
  (List.range g.size).filter (fun u => !p.isRemoved u)

theorem mem_liveNodes_iff {u : ℕ} : u ∈ liveNodes g p ↔ u < g.size ∧ p.Live u := by
  simp [liveNodes, Live]

/-- A step leaves fewer nodes. -/
theorem length_liveNodes_step (h : Balanced g p []) (hstep : p.step g = some q) :
    (liveNodes g q).length < (liveNodes g p).length := by
  obtain ⟨u, hu, hlive, -, hiff⟩ := exists_live_step_iff h hstep
  have hfilter : liveNodes g q = (liveNodes g p).filter (· ≠ u) := by
    rw [liveNodes, liveNodes, List.filter_filter]
    refine List.filter_congr fun v _ => ?_
    rw [Bool.eq_iff_iff]
    simpa [Live, and_comm] using hiff v
  rw [hfilter]
  exact List.length_filter_lt_length_iff_exists.mpr
    ⟨u, mem_liveNodes_iff.mpr ⟨hu, hlive⟩, by simp⟩

theorem Balanced.run (hg : g.Coherent) (h : Balanced g p []) (n : ℕ) :
    Balanced g (Peeling.run g n p) [] := by
  induction n generalizing p with
  | zero => exact h
  | succ n ih =>
    rw [Peeling.run]
    rcases hstep : p.step g with _ | q
    · exact h
    · exact ih (h.step hg hstep)

/-- **As many steps as there are nodes left empty the queue.** -/
theorem queue_run_eq_nil (hg : g.Coherent) {n : ℕ} (h : Balanced g p [])
    (hn : (liveNodes g p).length ≤ n) : (run g n p).queue = [] := by
  induction n generalizing p with
  | zero =>
    refine List.eq_nil_iff_forall_not_mem.mpr fun v hv => ?_
    obtain ⟨hlt, hlive, -⟩ := (h.mem_queue_iff v).mp hv
    have hmem : v ∈ liveNodes g p := mem_liveNodes_iff.mpr ⟨hlt, hlive⟩
    rw [List.length_eq_zero_iff.mp (Nat.le_zero.mp hn)] at hmem
    cases hmem
  | succ n ih =>
    rw [run]
    rcases hstep : p.step g with _ | q
    · rcases hqueue : p.queue with _ | ⟨u, rest⟩
      · rfl
      · simp [step, hqueue] at hstep
    · -- A step leaves fewer nodes, so the steps that remain are still enough.
      refine ih (h.step hg hstep) ?_
      have := length_liveNodes_step h hstep
      omega

/-- What is there after a run was there before. -/
theorem live_of_live_run (hg : g.Coherent) {n : ℕ} (h : Balanced g p []) {v : ℕ}
    (hlive : (run g n p).Live v) : p.Live v := by
  induction n generalizing p with
  | zero => exact hlive
  | succ n ih =>
    rw [run] at hlive
    rcases hstep : p.step g with _ | q
    · rwa [hstep] at hlive
    · rw [hstep] at hlive
      obtain ⟨u, -, -, -, hiff⟩ := exists_live_step_iff h hstep
      exact ((hiff v).mp (ih (h.step hg hstep) hlive)).1

/-- A step takes nothing from a fed set. -/
theorem live_step_of_fed (h : Balanced g p []) (hstep : p.step g = some q) {S : ℕ → Prop}
    (hS : g.Fed S) (hlive : ∀ v, S v → p.Live v) (v : ℕ) (hv : S v) : q.Live v := by
  obtain ⟨u, -, -, hnone, hiff⟩ := exists_live_step_iff h hstep
  refine (hiff v).mpr ⟨hlive v hv, ?_⟩
  rintro rfl
  obtain ⟨w, hw, hSw⟩ := hS v hv
  exact hnone w hw (hlive w hSw)

/-- **A run takes nothing from a fed set.** -/
theorem live_run_of_fed (hg : g.Coherent) {n : ℕ} (h : Balanced g p []) {S : ℕ → Prop}
    (hS : g.Fed S) (hlive : ∀ v, S v → p.Live v) (v : ℕ) (hv : S v) : (run g n p).Live v := by
  induction n generalizing p with
  | zero => exact hlive v hv
  | succ n ih =>
    rw [run]
    rcases hstep : p.step g with _ | q
    · exact hlive v hv
    · exact ih (h.step hg hstep) (live_step_of_fed h hstep hS hlive)

/-- Once the queue is empty, what is there is fed. -/
theorem fed_live (hg : g.Coherent) (h : Balanced g p []) (hqueue : p.queue = []) :
    g.Fed fun v => v < g.size ∧ p.Live v := by
  rintro v ⟨hv, hlive⟩
  have hpos : p.count v ≠ 0 := by
    intro hzero
    have hmem := (h.mem_queue_iff v).mpr ⟨hv, hlive, hzero⟩
    rw [hqueue] at hmem
    cases hmem
  rw [h.count_eq v hv hlive, List.count_nil, Nat.add_zero] at hpos
  obtain ⟨u, hu⟩ := List.exists_mem_of_length_pos (Nat.pos_of_ne_zero hpos)
  obtain ⟨hbefore, hulive⟩ := List.mem_filter.mp hu
  exact ⟨u, hbefore, (hg.lt_size (hg.mem_before_iff.mp hbefore)).1, by simpa [Live] using hulive⟩

end Run

/-! ### Passes -/

/-- Whether a pass that left `removed` behind left a node over. -/
def Survives (removed : Array Bool) (u : ℕ) : Prop := removed[u]?.getD false = false

/-- The start of a pass is balanced. -/
theorem balanced_start (g : Adjacency) {removed : Array Bool} (hsize : removed.size = g.size) :
    Balanced g (start g removed) [] where
  size_removed := hsize
  size_remaining := by simp [start]
  count_eq v hv hlive := by
    have hgone : removed[v]?.getD false = false := hlive
    simp [start, count, liveBefore, isRemoved, hv, hgone]
  queue_nodup := List.Nodup.filter _ List.nodup_range
  mem_queue_iff v := by
    simp only [start, List.mem_filter, List.mem_range, Live, isRemoved, count]
    simp

/-- **A pass leaves over the largest fed set that it finds.** -/
theorem survives_pass_iff {g : Adjacency} (hg : g.Coherent) {removed : Array Bool}
    (hsize : removed.size = g.size) {v : ℕ} (hv : v < g.size) :
    Survives (pass g removed) v ↔
      ∃ S : ℕ → Prop, S v ∧ g.Fed S ∧ ∀ u, S u → Survives removed u := by
  have hstart := balanced_start g hsize
  constructor
  · intro hlive
    -- What is there at the end is such a set itself.
    refine ⟨fun u => u < g.size ∧ (run g g.size (start g removed)).Live u, ⟨hv, hlive⟩, ?_, ?_⟩
    · refine fed_live hg (hstart.run hg _) (queue_run_eq_nil hg hstart ?_)
      exact (List.length_filter_le _ _).trans_eq List.length_range
    · rintro u ⟨-, hu⟩
      exact live_of_live_run hg hstart hu
  · rintro ⟨S, hSv, hfed, hlive⟩
    exact live_run_of_fed hg hstart hfed hlive v hSv

theorem size_pass {g : Adjacency} (hg : g.Coherent) {removed : Array Bool}
    (hsize : removed.size = g.size) : (pass g removed).size = g.size :=
  ((balanced_start g hsize).run hg _).size_removed

end Peeling

/-! ### The core -/

namespace Adjacency

variable {g : Adjacency}

/-- **A node between cycles**: a cycle reaches it, and it reaches a cycle. -/
def BetweenCycles (g : Adjacency) (v : ℕ) : Prop :=
  (∃ c, TransGen g.Arrow c c ∧ ReflTransGen g.Arrow c v) ∧
    ∃ c, ReflTransGen g.Arrow v c ∧ TransGen g.Arrow c c

theorem finite_of_fed (hg : g.Coherent) {S : ℕ → Prop} (hS : g.Fed S) : Finite {v // S v} := by
  have hlt : ∀ v, S v → v < g.size := by
    intro v hv
    obtain ⟨u, hu, -⟩ := hS v hv
    exact (hg.lt_size (hg.mem_before_iff.mp hu)).2
  refine Finite.of_injective (fun v : {v // S v} => (⟨v.1, hlt v.1 v.2⟩ : Fin g.size)) ?_
  exact fun v w h => Subtype.ext (Fin.mk.inj h)

/-- Every node of a fed set is reached from a cycle. -/
theorem exists_cycle_of_fed (hg : g.Coherent) {S : ℕ → Prop} (hS : g.Fed S) {v : ℕ} (hv : S v) :
    ∃ c, TransGen g.Arrow c c ∧ ReflTransGen g.Arrow c v := by
  have hserial : ∀ a, S a → ∃ b, Function.swap g.Arrow a b ∧ S b := by
    intro a ha
    obtain ⟨b, hb, hSb⟩ := hS a ha
    exact ⟨b, hg.mem_before_iff.mp hb, hSb⟩
  obtain ⟨c, -, hreach, hcycle⟩ := exists_cycle_of_serial (finite_of_fed hg hS) hserial hv
  exact ⟨c, transGen_swap.mp hcycle, reflTransGen_swap.mp hreach⟩

/-- The nodes that cycles reach are a fed set. -/
theorem fed_reached (hg : g.Coherent) :
    g.Fed fun v => ∃ c, TransGen g.Arrow c c ∧ ReflTransGen g.Arrow c v := by
  rintro v ⟨c, hcycle, hreach⟩
  obtain ⟨u, hu, harrow⟩ := TransGen.tail'_iff.mp (hcycle.trans_left hreach)
  exact ⟨u, hg.mem_before_iff.mpr harrow, c, hcycle, hu⟩

/-- The nodes between cycles are a fed set of the reverse. -/
theorem fed_reverse_betweenCycles : g.reverse.Fed g.BetweenCycles := by
  rintro v ⟨⟨a, ha, hav⟩, c, hvc, hc⟩
  obtain ⟨u, harrow, huc⟩ := TransGen.head'_iff.mp (hc.trans_right hvc)
  exact ⟨u, harrow, ⟨a, ha, hav.tail harrow⟩, c, huc, hc⟩

theorem BetweenCycles.lt_size (hg : g.Coherent) {v : ℕ} (h : g.BetweenCycles v) : v < g.size := by
  obtain ⟨u, harrow, -⟩ := fed_reverse_betweenCycles v h
  exact (hg.lt_size harrow).1

theorem arrow_reverse_eq_swap (hg : g.Coherent) : g.reverse.Arrow = Function.swap g.Arrow := by
  funext u v
  exact propext hg.arrow_reverse_iff

/-- Every node of a fed set of the reverse reaches a cycle. -/
theorem exists_cycle_of_fed_reverse (hg : g.Coherent) {S : ℕ → Prop} (hS : g.reverse.Fed S) {v : ℕ}
    (hv : S v) : ∃ c, ReflTransGen g.Arrow v c ∧ TransGen g.Arrow c c := by
  obtain ⟨c, hcycle, hreach⟩ := exists_cycle_of_fed hg.reverse hS hv
  rw [arrow_reverse_eq_swap hg] at hcycle hreach
  exact ⟨c, reflTransGen_swap.mp hreach, transGen_swap.mp hcycle⟩

/-- The first pass leaves over what cycles reach. -/
theorem survives_forward_iff (hg : g.Coherent) {v : ℕ} (hv : v < g.size) :
    Peeling.Survives (Peeling.pass g (List.replicate g.size false).toArray) v ↔
      ∃ c, TransGen g.Arrow c c ∧ ReflTransGen g.Arrow c v := by
  rw [Peeling.survives_pass_iff hg (by simp) hv]
  constructor
  · rintro ⟨S, hSv, hfed, -⟩
    exact exists_cycle_of_fed hg hfed hSv
  · intro h
    refine ⟨_, h, fed_reached hg, fun u _ => ?_⟩
    simp only [Peeling.Survives, List.toArray_replicate, Array.getElem?_replicate]
    split <;> rfl

/-- **What survives peeling from both sides are the nodes between cycles.** -/
theorem mem_core_iff (hg : g.Coherent) {v : ℕ} : v ∈ g.core ↔ g.BetweenCycles v := by
  have hsize : (Peeling.pass g (List.replicate g.size false).toArray).size = g.size :=
    Peeling.size_pass hg (by simp)
  have hmem : v ∈ g.core ↔ v < g.size ∧ Peeling.Survives (Peeling.pass g.reverse
      (Peeling.pass g (List.replicate g.size false).toArray)) v := by
    simp [core, Peeling.Survives]
  rw [hmem]
  constructor
  · rintro ⟨hv, hsurvives⟩
    obtain ⟨S, hSv, hfed, hforward⟩ :=
      (Peeling.survives_pass_iff hg.reverse hsize hv).mp hsurvives
    exact ⟨(survives_forward_iff hg hv).mp (hforward v hSv),
      exists_cycle_of_fed_reverse hg hfed hSv⟩
  · intro h
    refine ⟨h.lt_size hg, (Peeling.survives_pass_iff hg.reverse hsize (h.lt_size hg)).mpr
      ⟨g.BetweenCycles, h, fed_reverse_betweenCycles, fun u hu => ?_⟩⟩
    exact (survives_forward_iff hg (hu.lt_size hg)).mpr hu.1

open Classical in
/-- The core lists the nodes between cycles in increasing order. -/
theorem core_eq_filter (hg : g.Coherent) :
    g.core = (List.range g.size).filter g.BetweenCycles := by
  have hmem : ∀ {v}, v ∈ g.core ↔ g.BetweenCycles v := mem_core_iff hg
  simp only [core, List.mem_filter] at hmem ⊢
  refine List.filter_congr fun v hv => ?_
  rw [Bool.eq_iff_iff, decide_eq_true_eq, ← hmem, and_iff_right hv]

end Adjacency

end CallChain
