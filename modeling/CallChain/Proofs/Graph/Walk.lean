import CallChain.Graph.Chain
import CallChain.Proofs.Graph.Peeling

/-!
# Walking along a row

A multigraph without cycles and without branches, with one node that nothing leads to, is one row.
A walk from that node meets no node twice, so it ends at a node without successors
(`CallChain.Adjacency.exists_walk_eq_ok`); and it passes every node, because the nodes that it
misses would all have predecessors among themselves and peeling would find a cycle
(`CallChain.Adjacency.Row.mem_iff`).

`CallChain.Adjacency.Row` is what a walk has seen at its end: each number is followed by the only
successor of its node. `CallChain.Graph.orderOf_eq_ok_iff` puts the checks together: an order is
given exactly for the multigraphs that are one row, and it is the names along the row.
-/

set_option autoImplicit false

namespace CallChain

open Relation

/-! ### Neighbours in a list -/

section Consecutive

variable {α : Type}

/-- The pairs of neighbours in a list. -/
def consecutive (as : List α) : List (α × α) := as.zip as.tail

@[simp] theorem consecutive_singleton (a : α) : consecutive [a] = [] := rfl

@[simp] theorem consecutive_cons_cons (a b : α) (rest : List α) :
    consecutive (a :: b :: rest) = (a, b) :: consecutive (b :: rest) := rfl

theorem consecutive_map {β : Type} (f : α → β) (as : List α) :
    consecutive (as.map f) = (consecutive as).map (Prod.map f f) := by
  rw [consecutive, consecutive, ← List.map_tail, List.zip_map]

theorem map_snd_consecutive (as : List α) : (consecutive as).map Prod.snd = as.tail :=
  List.map_snd_zip (by simp)

theorem map_fst_consecutive : ∀ as : List α, (consecutive as).map Prod.fst = as.dropLast
  | [] => rfl
  | [_] => rfl
  | a :: b :: rest => congrArg (a :: ·) (map_fst_consecutive (b :: rest))

theorem fst_mem_of_mem_consecutive {as : List α} {p : α × α} (h : p ∈ consecutive as) :
    p.1 ∈ as :=
  List.mem_of_mem_dropLast (map_fst_consecutive as ▸ List.mem_map_of_mem h)

theorem snd_mem_tail_of_mem_consecutive {as : List α} {p : α × α} (h : p ∈ consecutive as) :
    p.2 ∈ as.tail :=
  map_snd_consecutive as ▸ List.mem_map_of_mem h

theorem fst_eq_or_mem_of_mem_consecutive_cons {a : α} {as : List α} {p : α × α}
    (h : p ∈ consecutive (a :: as)) : p.1 = a ∨ p ∈ consecutive as := by
  rcases as with _ | ⟨b, rest⟩
  · cases h
  · rcases List.mem_cons.mp h with rfl | hlater
    · exact Or.inl rfl
    · exact Or.inr hlater

theorem mem_consecutive_append (done : List α) (a b : α) (rest : List α) :
    (a, b) ∈ consecutive (done ++ a :: b :: rest) := by
  induction done with
  | nil => exact List.mem_cons_self
  | cons c done ih =>
    rcases done with _ | ⟨d, done⟩
    · exact List.mem_cons_of_mem _ ih
    · exact List.mem_cons_of_mem _ ih

/-- A right neighbour comes right behind. -/
theorem exists_eq_cons_of_mem_consecutive {done : List α} {a b : α} {rest : List α}
    (hnodup : (done ++ a :: rest).Nodup) (h : (a, b) ∈ consecutive (done ++ a :: rest)) :
    ∃ rest', rest = b :: rest' := by
  induction done with
  | nil =>
    have ha : a ∉ rest := (List.nodup_cons.mp hnodup).1
    rcases rest with _ | ⟨c, rest⟩
    · cases h
    · rcases List.mem_cons.mp h with heq | hlater
      · exact ⟨rest, (Prod.mk.inj heq).2 ▸ rfl⟩
      · exact absurd (fst_mem_of_mem_consecutive hlater) ha
  | cons c done ih =>
    obtain ⟨hc, hnodup⟩ := List.nodup_cons.mp hnodup
    rcases fst_eq_or_mem_of_mem_consecutive_cons h with rfl | hlater
    · exact absurd (List.mem_append_right done List.mem_cons_self) hc
    · exact ih hnodup hlater

/-- Left neighbours come before right ones. -/
theorem idxOf_lt_idxOf_of_mem_consecutive [DecidableEq α] {as : List α} (hnodup : as.Nodup)
    {a b : α} (h : (a, b) ∈ consecutive as) : as.idxOf a < as.idxOf b := by
  induction as with
  | nil => cases h
  | cons c rest ih =>
    obtain ⟨hc, hrest⟩ := List.nodup_cons.mp hnodup
    rcases rest with _ | ⟨d, rest⟩
    · cases h
    · rw [consecutive_cons_cons, List.mem_cons] at h
      have hb : b ∈ d :: rest := by
        rcases h with heq | hlater
        · exact (Prod.mk.inj heq).2 ▸ List.mem_cons_self
        · exact List.mem_of_mem_tail (snd_mem_tail_of_mem_consecutive hlater)
      have hne : b ≠ c := fun he => hc (he ▸ hb)
      rcases h with heq | hlater
      · rw [(Prod.mk.inj heq).1, List.idxOf_cons_self, List.idxOf_cons_ne _ hne.symm]
        exact Nat.succ_pos _
      · have hac : a ≠ c := fun he => hc (he ▸ fst_mem_of_mem_consecutive hlater)
        rw [List.idxOf_cons_ne _ hac.symm, List.idxOf_cons_ne _ hne.symm]
        exact Nat.succ_lt_succ (ih hrest hlater)

end Consecutive

/-! ### Rows -/

namespace Adjacency

variable {g : Adjacency}

/-- No node is on a cycle. -/
def Acyclic (g : Adjacency) : Prop := ∀ v, ¬TransGen g.Arrow v v

/-- No node has two edges into it or two edges out of it. -/
def Unbranched (g : Adjacency) : Prop := ∀ v, (g.before v).length ≤ 1 ∧ (g.after v).length ≤ 1

/-- A node is the only one without predecessors. -/
def OnlyStart (g : Adjacency) (s : ℕ) : Prop :=
  s < g.size ∧ ∀ v < g.size, g.before v = [] ↔ v = s

/-- **What a walk has seen at its end**: every number is followed by the only successor of its
node, and the last one has none. -/
def Row (g : Adjacency) : List ℕ → Prop
  | [] => True
  | [u] => g.after u = []
  | u :: v :: rest => g.after u = [v] ∧ Row g (v :: rest)

theorem core_eq_nil_iff (hg : g.Coherent) : g.core = [] ↔ g.Acyclic := by
  rw [List.eq_nil_iff_forall_not_mem]
  constructor
  · intro h v hcycle
    exact h v ((mem_core_iff hg).mpr ⟨⟨v, hcycle, .refl⟩, v, .refl, hcycle⟩)
  · intro h v hv
    obtain ⟨⟨c, hcycle, -⟩, -⟩ := (mem_core_iff hg).mp hv
    exact h c hcycle

/-- A row is known by where it starts. -/
theorem Row.unique {s : ℕ} {rest rest' : List ℕ} (h : g.Row (s :: rest))
    (h' : g.Row (s :: rest')) : rest = rest' := by
  induction rest generalizing s rest' with
  | nil =>
    rcases rest' with _ | ⟨b, rest'⟩
    · rfl
    · exact absurd (h'.1.symm.trans h) (List.cons_ne_nil b [])
  | cons a rest ih =>
    rcases rest' with _ | ⟨b, rest'⟩
    · exact absurd (h.1.symm.trans h') (List.cons_ne_nil a [])
    · obtain rfl : a = b := by simpa using h.1.symm.trans h'.1
      rw [ih h.2 h'.2]

/-- What a row leads to is on the row. -/
theorem Row.mem_of_arrow {ns : List ℕ} (h : g.Row ns) {u v : ℕ} (hu : u ∈ ns)
    (harrow : g.Arrow u v) : v ∈ ns := by
  induction ns with
  | nil => cases hu
  | cons a rest ih =>
    rcases rest with _ | ⟨b, rest⟩
    · obtain rfl : u = a := by simpa using hu
      rw [Arrow, show g.after u = [] from h] at harrow
      cases harrow
    · rcases List.mem_cons.mp hu with rfl | hlater
      · rw [Arrow, h.1, List.mem_singleton] at harrow
        exact harrow ▸ List.mem_cons_of_mem _ List.mem_cons_self
      · exact List.mem_cons_of_mem a (ih h.2 hlater)

/-- **Along a row the neighbours are the edges**, and that makes a row. -/
theorem row_iff_count_consecutive {ns : List ℕ} (hnodup : ns.Nodup) :
    g.Row ns ↔ ∀ u ∈ ns, ∀ v, (consecutive ns).count (u, v) = (g.after u).count v := by
  induction ns with
  | nil => simp [Row]
  | cons a rest ih =>
    obtain ⟨ha, hrest⟩ := List.nodup_cons.mp hnodup
    -- The first number is met once only, so its pairs and those of the others are counted apart.
    rcases rest with _ | ⟨b, rest⟩
    · simp only [List.forall_mem_singleton, consecutive_singleton, List.count_nil, Row]
      constructor
      · intro h v
        rw [h, List.count_nil]
      · intro h
        exact List.eq_nil_iff_forall_not_mem.mpr fun v => List.count_eq_zero.mp (h v).symm
    · have hfirst : ∀ v, (consecutive (a :: b :: rest)).count (a, v) = [b].count v := by
        intro v
        have hzero : (consecutive (b :: rest)).count (a, v) = 0 :=
          List.count_eq_zero_of_not_mem fun hmem => ha (fst_mem_of_mem_consecutive hmem)
        rw [consecutive_cons_cons, List.count_cons, hzero]
        simp [List.count_singleton]
      have hlater : ∀ u ∈ b :: rest, ∀ v, (consecutive (a :: b :: rest)).count (u, v) =
          (consecutive (b :: rest)).count (u, v) := by
        intro u hu v
        refine List.count_cons_of_ne fun he => ha ?_
        exact (Prod.mk.inj he).1 ▸ hu
      have hsplit : (∀ u ∈ a :: b :: rest, ∀ v,
          (consecutive (a :: b :: rest)).count (u, v) = (g.after u).count v) ↔
            (∀ v, (consecutive (a :: b :: rest)).count (a, v) = (g.after a).count v) ∧
              ∀ u ∈ b :: rest, ∀ v,
                (consecutive (a :: b :: rest)).count (u, v) = (g.after u).count v :=
        List.forall_mem_cons
      rw [Row, ih hrest, hsplit]
      refine and_congr ?_ (forall₂_congr fun u hu => forall_congr' fun v => ?_)
      · simp only [hfirst]
        constructor
        · intro h v
          rw [h]
        · intro h
          exact List.perm_singleton.mp (List.perm_iff_count.mpr fun v => (h v).symm)
      · rw [hlater u hu]

/-- A row ends at the only node without successors. -/
theorem Row.after_eq_nil_iff {ns : List ℕ} (h : g.Row ns) (hnodup : ns.Nodup) {u : ℕ}
    (hu : u ∈ ns) : g.after u = [] ↔ some u = ns.getLast? := by
  induction ns with
  | nil => cases hu
  | cons a rest ih =>
    obtain ⟨ha, hrest⟩ := List.nodup_cons.mp hnodup
    rcases rest with _ | ⟨b, rest⟩
    · obtain rfl : u = a := by simpa using hu
      simpa using show g.after u = [] from h
    · rw [List.getLast?_cons_cons]
      rcases List.mem_cons.mp hu with rfl | hlater
      · have hne : some u ≠ (b :: rest).getLast? :=
          fun he => ha (List.mem_of_getLast? he.symm)
        simp [h.1, hne]
      · exact ih h.2 hrest hlater

/-- **A row from the only start passes every node**: the nodes off the row would feed each
other. -/
theorem Row.mem_iff (hg : g.Coherent) (hacyclic : g.Acyclic) {s : ℕ} {rest : List ℕ}
    (hstart : g.OnlyStart s) (h : g.Row (s :: rest)) (hlt : ∀ v ∈ s :: rest, v < g.size) (v : ℕ) :
    v ∈ s :: rest ↔ v < g.size := by
  refine ⟨hlt v, fun hv => ?_⟩
  by_contra hoff
  -- A node off the row is not the start, and what leads to it is off the row as well.
  have hfed : g.Fed fun v => v < g.size ∧ v ∉ s :: rest := by
    rintro w ⟨hw, hwoff⟩
    have hne : g.before w ≠ [] := by
      intro hnil
      exact hwoff ((hstart.2 w hw).mp hnil ▸ List.mem_cons_self)
    obtain ⟨u, hu⟩ := List.exists_mem_of_ne_nil _ hne
    have harrow : g.Arrow u w := hg.mem_before_iff.mp hu
    exact ⟨u, hu, (hg.lt_size harrow).1, fun hmem => hwoff (h.mem_of_arrow hmem harrow)⟩
  obtain ⟨c, hcycle, -⟩ := exists_cycle_of_fed hg hfed ⟨hv, hoff⟩
  exact hacyclic c hcycle

/-! ### The walk -/

/-- **A walk in a graph without cycles and branches arrives**: from where it stands it sees a row,
and it meets no node twice. The nodes visited so far all lead to where it stands. -/
theorem exists_walk_eq_ok (hg : g.Coherent) (hacyclic : g.Acyclic) (hline : g.Unbranched)
    (ids : List String) {n : ℕ} {visited : List ℕ} {u : ℕ} (hu : u < g.size)
    (hnodup : visited.Nodup) (hlt : ∀ w ∈ visited, w < g.size)
    (hreach : ∀ w ∈ visited, TransGen g.Arrow w u) (hsteps : g.size < visited.length + n) :
    ∃ rest, Graph.walk ids g n visited u = .ok (visited.reverse ++ u :: rest) ∧
      g.Row (u :: rest) ∧ (∀ w ∈ u :: rest, w < g.size) ∧ (visited.reverse ++ u :: rest).Nodup := by
  have hnew : u ∉ visited := fun hmem => hacyclic u (hreach u hmem)
  have hnodup' : (u :: visited).Nodup := List.nodup_cons.mpr ⟨hnew, hnodup⟩
  have hlt' : ∀ w ∈ u :: visited, w < g.size := List.forall_mem_cons.mpr ⟨hu, hlt⟩
  induction n generalizing visited u with
  | zero =>
    -- More distinct numbers have been visited than there are.
    have hsub : (u :: visited) ⊆ List.range g.size := fun w hw => List.mem_range.mpr (hlt' w hw)
    have hlength := (List.subperm_of_subset hnodup' hsub).length_le
    rw [List.length_range, List.length_cons] at hlength
    omega
  | succ n ih =>
    rw [Graph.walk, if_neg (by simpa using hnew)]
    rcases hafter : g.after u with _ | ⟨v, more⟩
    · refine ⟨[], by simp, hafter, by simpa using hu, ?_⟩
      simpa [List.nodup_append_comm] using hnodup'
    · have hmore : more = [] := by
        have hlength := (hline u).2
        rw [hafter, List.length_cons] at hlength
        exact List.length_eq_zero_iff.mp (by omega)
      subst hmore
      have harrow : g.Arrow u v := by rw [Arrow, hafter]; exact List.mem_singleton_self v
      have hreach' : ∀ w ∈ u :: visited, TransGen g.Arrow w v :=
        List.forall_mem_cons.mpr ⟨.single harrow, fun w hw => (hreach w hw).tail harrow⟩
      -- To meet the next number again would close a cycle.
      have hv : v < g.size := (hg.lt_size harrow).2
      have hvnew : v ∉ u :: visited := fun hmem => hacyclic v (hreach' v hmem)
      obtain ⟨rest, hwalk, hrow, hrestlt, hall⟩ := ih hv hnodup' hlt' hreach'
        (by rw [List.length_cons]; omega) hvnew (List.nodup_cons.mpr ⟨hvnew, hnodup'⟩)
        (List.forall_mem_cons.mpr ⟨hv, hlt'⟩)
      refine ⟨v :: rest, ?_, ⟨hafter, hrow⟩, List.forall_mem_cons.mpr ⟨hu, hrestlt⟩, ?_⟩
      · simpa using hwalk
      · simpa using hall

/-! ### The checks of an order -/

theorem after_eq_nil_of_le (hg : g.Coherent) {v : ℕ} (hv : g.size ≤ v) : g.after v = [] := by
  refine List.eq_nil_iff_forall_not_mem.mpr fun w hw => ?_
  exact absurd (hg.lt_size hw).1 (by omega)

/-- Whether a node has two edges into it or two edges out of it. -/
def branches (g : Adjacency) (u : ℕ) : Bool := 1 < (g.before u).length || 1 < (g.after u).length

theorem find_branches_eq_none_iff (hg : g.Coherent) :
    (List.range g.size).find? g.branches = none ↔ g.Unbranched := by
  simp only [List.find?_eq_none, List.mem_range, branches, Bool.or_eq_true, decide_eq_true_eq]
  constructor
  · intro h v
    by_cases hv : v < g.size
    · have := h v hv
      omega
    · rw [after_eq_nil_of_le hg (by omega),
        ← after_reverse, after_eq_nil_of_le hg.reverse (show g.reverse.size ≤ v by simp; omega)]
      simp
  · intro h v _
    have := h v
    omega

/-- Exactly one number below a bound has a property. -/
theorem filter_range_eq_singleton_iff {n a : ℕ} {p : ℕ → Bool} :
    (List.range n).filter p = [a] ↔ a < n ∧ ∀ v < n, p v = true ↔ v = a := by
  constructor
  · intro h
    have hmem : ∀ v, v ∈ (List.range n).filter p ↔ v = a := by simp [h]
    simp only [List.mem_filter, List.mem_range] at hmem
    exact ⟨((hmem a).mpr rfl).1, fun v hv => ⟨fun hp => (hmem v).mp ⟨hv, hp⟩,
      fun he => ((hmem v).mpr he).2⟩⟩
  · rintro ⟨ha, h⟩
    have hcongr : (List.range n).filter p = (List.range n).filter (· == a) := by
      refine List.filter_congr fun v hv => ?_
      rw [Bool.eq_iff_iff, h v (List.mem_range.mp hv), beq_iff_eq]
    rw [hcongr, List.filter_beq, List.count_eq_one_of_mem List.nodup_range (List.mem_range.mpr ha)]
    rfl

/-- The start is found when there is one start and one end. -/
theorem theStart_eq_ok_iff {ids : List String} {s : ℕ} :
    Graph.theStart ids g = .ok s ↔
      g.OnlyStart s ∧ ∃ e < g.size, ∀ v < g.size, g.after v = [] ↔ v = e := by
  have hiff : ∀ (l : ℕ → List ℕ) (a : ℕ),
      (List.range g.size).filter (fun u => (l u).isEmpty) = [a] ↔
        a < g.size ∧ ∀ v < g.size, l v = [] ↔ v = a := by
    intro l a
    simp [filter_range_eq_singleton_iff]
  constructor
  · intro h
    rw [Graph.theStart] at h
    split at h
    · cases h
    · rename_i start hstarts
      split at h
      · cases h
      · rename_i e hends
        cases h
        exact ⟨(hiff g.before s).mp hstarts, e, (hiff g.after e).mp hends⟩
      · cases h
    · cases h
  · rintro ⟨hs, e, he⟩
    rw [Graph.theStart, (hiff g.before s).mpr hs]
    simp only [(hiff g.after e).mpr he]

end Adjacency

/-! ### Orders -/

namespace Graph

open Adjacency

/-- **The walk from the only start sees all nodes in one row**, if there are no cycles and no
branches. -/
theorem exists_walk_from_start {a : Adjacency} (ha : a.Coherent) (hacyclic : a.Acyclic)
    (hline : a.Unbranched) (ids : List String) {s : ℕ} (hs : a.OnlyStart s) :
    ∃ rest, walk ids a (a.size + 1) [] s = .ok (s :: rest) ∧ a.Row (s :: rest) ∧
      (s :: rest).Nodup ∧ ∀ v, v ∈ s :: rest ↔ v < a.size := by
  obtain ⟨rest, hwalk, hrow, hlt, hnodup⟩ := exists_walk_eq_ok (n := a.size + 1) ha hacyclic hline
    ids hs.1 List.nodup_nil (by simp) (by simp) (by simp)
  exact ⟨rest, hwalk, hrow, hnodup, hrow.mem_iff ha hacyclic hs hlt⟩

/-- What is left to do when there is no core. -/
theorem orderOf_of_core_eq_nil {a : Adjacency} (ids : List String) (h : a.core = []) :
    orderOf ids a = (match (List.range a.size).find? a.branches with
      | some u => .error (.branchingNode (nameOf ids u) (a.before u).length (a.after u).length)
      | none => do
        let start ← theStart ids a
        let visited ← walk ids a (a.size + 1) [] start
        match (List.range a.size).find? (fun u => !visited.contains u) with
        | some u => .error (.disconnectedNode (nameOf ids u))
        | none => .ok (visited.map (nameOf ids))) := by
  rw [orderOf, h]
  rfl

/-- **The checks of an order, one after another**: the core, branches, starts and ends. What comes
after them succeeds. -/
theorem orderOf_cases {a : Adjacency} (ha : a.Coherent) (ids : List String) :
    (a.core ≠ [] ∧ orderOf ids a = .error (.cycleDetected (a.core.map (nameOf ids)))) ∨
    (a.Acyclic ∧ ∃ u, (List.range a.size).find? a.branches = some u ∧ orderOf ids a =
      .error (.branchingNode (nameOf ids u) (a.before u).length (a.after u).length)) ∨
    (a.Acyclic ∧ a.Unbranched ∧ ∃ e, theStart ids a = .error e ∧ orderOf ids a = .error e) ∨
    (a.Acyclic ∧ a.Unbranched ∧ ∃ s rest, a.OnlyStart s ∧ a.Row (s :: rest) ∧ (s :: rest).Nodup ∧
      (∀ v, v ∈ s :: rest ↔ v < a.size) ∧ orderOf ids a = .ok ((s :: rest).map (nameOf ids))) := by
  rcases hcore : a.core with _ | ⟨u, more⟩
  · have hacyclic := (core_eq_nil_iff ha).mp hcore
    have horder := orderOf_of_core_eq_nil ids hcore
    rcases hbranch : (List.range a.size).find? a.branches with _ | u
    · have hline := (find_branches_eq_none_iff ha).mp hbranch
      rw [hbranch] at horder
      rcases hstart : theStart ids a with e | s
      · rw [hstart] at horder
        exact Or.inr (Or.inr (Or.inl ⟨hacyclic, hline, e, rfl, horder⟩))
      · -- From here on nothing fails: the walk arrives and misses no node.
        obtain ⟨hs, -⟩ := theStart_eq_ok_iff.mp hstart
        obtain ⟨rest, hwalk, hrow, hnodup, hall⟩ := exists_walk_from_start ha hacyclic hline ids hs
        have hseen : (List.range a.size).find? (fun u => !(s :: rest).contains u) = none := by
          rw [List.find?_eq_none]
          intro u hu
          have hmem : (s :: rest).contains u = true :=
            List.contains_iff_mem.mpr ((hall u).mpr (List.mem_range.mp hu))
          rw [hmem]
          decide
        simp only [hstart, bind, Except.bind, hwalk, hseen] at horder
        exact Or.inr (Or.inr (Or.inr ⟨hacyclic, hline, s, rest, hs, hrow, hnodup, hall, horder⟩))
    · rw [hbranch] at horder
      exact Or.inr (Or.inl ⟨hacyclic, u, rfl, horder⟩)
  · refine Or.inl ⟨List.cons_ne_nil u more, ?_⟩
    rw [orderOf, hcore]

/-- In one row there is a start and an end. -/
theorem theStart_eq_ok_of_row {a : Adjacency} {ids : List String} {s : ℕ} {rest : List ℕ}
    (hs : a.OnlyStart s) (hrow : a.Row (s :: rest)) (hnodup : (s :: rest).Nodup)
    (hall : ∀ v, v ∈ s :: rest ↔ v < a.size) : theStart ids a = .ok s := by
  refine theStart_eq_ok_iff.mpr ⟨hs, (s :: rest).getLast (List.cons_ne_nil s rest), ?_, ?_⟩
  · exact (hall _).mp (List.getLast_mem _)
  · intro v hv
    rw [hrow.after_eq_nil_iff hnodup ((hall v).mpr hv),
      List.getLast?_eq_getLast_of_ne_nil (List.cons_ne_nil s rest), Option.some_inj]

/-- **An order is given exactly when the multigraph is one row**: no cycle, no branch, one start.
It names the nodes along the row, which are all nodes. -/
theorem orderOf_eq_ok_iff {ids : List String} {a : Adjacency} (ha : a.Coherent)
    {order : List String} :
    orderOf ids a = .ok order ↔ a.Acyclic ∧ a.Unbranched ∧ ∃ s rest, a.OnlyStart s ∧
      a.Row (s :: rest) ∧ (s :: rest).Nodup ∧ (∀ v, v ∈ s :: rest ↔ v < a.size) ∧
      order = (s :: rest).map (nameOf ids) := by
  rcases orderOf_cases ha ids with ⟨hcore, h⟩ | ⟨-, u, hbranch, h⟩ | ⟨-, -, e, hstart, h⟩ |
    ⟨hacyclic, hline, s, rest, hs, hrow, hnodup, hall, h⟩
  · rw [h]
    simp only [reduceCtorEq, false_iff]
    exact fun hrow => hcore ((core_eq_nil_iff ha).mpr hrow.1)
  · rw [h]
    simp only [reduceCtorEq, false_iff]
    intro hrow
    rw [(find_branches_eq_none_iff ha).mpr hrow.2.1] at hbranch
    cases hbranch
  · rw [h]
    simp only [reduceCtorEq, false_iff]
    rintro ⟨-, -, s, rest, hs, hrow, hnodup, hall, -⟩
    rw [theStart_eq_ok_of_row hs hrow hnodup hall] at hstart
    cases hstart
  · rw [h, Except.ok.injEq]
    constructor
    · rintro rfl
      exact ⟨hacyclic, hline, s, rest, hs, hrow, hnodup, hall, rfl⟩
    · rintro ⟨-, -, s', rest', hs', hrow', -, -, rfl⟩
      obtain rfl : s' = s := (hs.2 s' hs'.1).mp ((hs'.2 s' hs'.1).mpr rfl)
      rw [hrow.unique hrow']

end Graph

end CallChain
