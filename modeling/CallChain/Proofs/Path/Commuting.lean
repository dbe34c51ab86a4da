import CallChain.Proofs.Path.Obstacles

/-!
# Writings that do not meet

Two writings at paths neither of which continues the other change different parts of a document. Up
to where the paths part they take the same way, and create the same containers on it; behind that
they do not see each other any more. So they commute, as far as both of them succeed.

They need not succeed in both orders, and `CallChain.FieldPath.Crossing` says what can happen to the
second writing if the first succeeds: the two commute; or the first has made a container of the
wrong kind for it out of null, and it cannot be written after the first at all; or it is an append
that comes too early, which only the first makes possible. There is no fourth way
(`CallChain.FieldPath.crossing`).
-/

set_option autoImplicit false

namespace CallChain

namespace Segment

variable {s s' : Segment} {root after : Json} {x : Json}

/-- Two writings at different indices commute, unless the second is past the end of the array. -/
theorem commute_index_cases {i j : ℕ} (hij : i ≠ j) (h : (index i).put? x root = some after)
    (y : Json) :
    (∃ other both, (index j).put? y root = some other ∧ (index j).put? y after = some both ∧
      (index i).put? x other = some both) ∨
    ∃ k length, (index j).obstacle? root = some (.pastEnd k length) := by
  obtain ⟨items, hitems, hplace⟩ := put?_index_eq_some_iff.mp h
  rcases Nat.lt_trichotomy j items.length with hj | hj | hj
  · -- The second writes in place, wherever the first writes.
    have hother : (index j).put? y root = some (.arr (items.set j y)) :=
      put?_index_eq_some_iff.mpr ⟨items, hitems, Or.inl ⟨hj, rfl⟩⟩
    rcases hplace with ⟨hi, rfl⟩ | ⟨rfl, rfl⟩
    · refine Or.inl ⟨_, .arr ((items.set i x).set j y), hother, ?_, ?_⟩
      · exact put?_index_eq_some_iff.mpr ⟨_, rfl, Or.inl ⟨by rwa [List.length_set], rfl⟩⟩
      · rw [List.set_comm _ _ hij]
        exact put?_index_eq_some_iff.mpr ⟨_, rfl, Or.inl ⟨by rwa [List.length_set], rfl⟩⟩
    · refine Or.inl ⟨_, .arr ((items ++ [x]).set j y), hother, ?_, ?_⟩
      · exact put?_index_eq_some_iff.mpr
          ⟨_, rfl, Or.inl ⟨by rw [List.length_append]; omega, rfl⟩⟩
      · rw [List.set_append_left _ _ hj]
        exact put?_index_eq_some_iff.mpr ⟨_, rfl, Or.inr ⟨by rw [List.length_set], rfl⟩⟩
  · -- The second appends, and the first writes in place.
    subst hj
    obtain ⟨hi, rfl⟩ : i < items.length ∧ after = .arr (items.set i x) :=
      hplace.resolve_right fun hlast => hij hlast.1
    refine Or.inl ⟨.arr (items ++ [y]), .arr (items.set i x ++ [y]), ?_, ?_, ?_⟩
    · exact put?_index_eq_some_iff.mpr ⟨items, hitems, Or.inr ⟨rfl, rfl⟩⟩
    · exact put?_index_eq_some_iff.mpr ⟨_, rfl, Or.inr ⟨by rw [List.length_set], rfl⟩⟩
    · rw [← List.set_append_left _ _ hi]
      exact put?_index_eq_some_iff.mpr
        ⟨_, rfl, Or.inl ⟨by rw [List.length_append]; omega, rfl⟩⟩
  · refine Or.inr ⟨j, items.length, ?_⟩
    rw [obstacle?, hitems]
    exact if_pos hj

/-- **Two writings at different steps of one value**, of which the first succeeds. -/
theorem commute_cases (hne : s ≠ s') (h : s.put? x root = some after) (y : Json) :
    (∃ other both, s'.put? y root = some other ∧ s'.put? y after = some both ∧
      s.put? x other = some both) ∨
    s'.obstacle? after = some .notAContainer ∨
    ∃ i length, s'.obstacle? root = some (.pastEnd i length) := by
  cases s with
  | field name =>
    obtain ⟨members, hmembers, rfl⟩ := put?_field_eq_some_iff.mp h
    cases s' with
    | field name' =>
      have hnames : name' ≠ name := fun heq => hne (congrArg field heq.symm)
      refine Or.inl ⟨_, _, put?_field_eq_some_iff.mpr ⟨members, hmembers, rfl⟩,
        put?_field_eq_some_iff.mpr ⟨_, rfl, rfl⟩, put?_field_eq_some_iff.mpr ⟨_, rfl, ?_⟩⟩
      rw [Entries.insert_comm hnames]
    | index j => exact Or.inr (Or.inl rfl)
  | index i =>
    obtain ⟨items, hitems, hplace⟩ := put?_index_eq_some_iff.mp h
    cases s' with
    | field name' =>
      rcases hplace with ⟨-, rfl⟩ | ⟨-, rfl⟩
      · exact Or.inr (Or.inl rfl)
      · exact Or.inr (Or.inl rfl)
    | index j =>
      have hij : i ≠ j := fun heq => hne (congrArg index heq)
      exact (commute_index_cases hij h y).imp_right Or.inr

end Segment

namespace FieldPath

variable {p q : FieldPath} {s s' : Segment} {v w root inner after : Json}

/-! ### Along a path -/

/-- A writing succeeds when the rest of it succeeds behind the first step. -/
theorem inject_cons_iff :
    inject (s :: p) v root = (after, none) ↔
      ∃ inner, p.inject v ((s.step root).getD .null) = (inner, none) ∧
        s.put? inner root = some after := by
  rw [inject, injectFrom_cons_iff]
  exact exists_congr fun inner => and_congr_left fun _ => injectFrom_eq_iff

/-- **A writing succeeds when nothing is in its way.** -/
theorem obstacle?_eq_none_iff :
    p.obstacle? root = none ↔ ∃ after, p.inject v root = (after, none) := by
  obtain ⟨k, hk⟩ := exists_snd_injectFrom_eq p v 0 p root
  rw [← Option.map_eq_none_iff (f := (·.error p k)), ← hk]
  constructor
  · exact fun h => ⟨_, Prod.ext rfl h⟩
  · rintro ⟨after, h⟩
    exact congrArg Prod.snd h

/-- What is in the way of the first step is in the way. -/
theorem obstacle?_cons_of_obstacle {o : Obstacle} (h : s.obstacle? root = some o) :
    obstacle? (s :: p) root = some o := by
  rw [obstacle?, h]

/-- Where the first step is free, what is in the way lies behind it. -/
theorem obstacle?_cons_of_put? (h : s.put? inner root = some after) :
    obstacle? (s :: p) root = p.obstacle? ((s.step root).getD .null) := by
  rw [obstacle?, Segment.obstacle?_eq_none_iff.mpr ⟨after, h⟩]

/-- **What becomes of a second writing**, at `q`, when a first one, at `p`, succeeds. -/
inductive Crossing (p q : FieldPath) (v w root after : Json) : Prop
  /-- Both succeed in both orders, and lead to the same value. -/
  | commute {other both : Json} : q.inject w root = (other, none) →
    q.inject w after = (both, none) → p.inject v other = (both, none) → Crossing p q v w root after
  /-- After the first, a container of the wrong kind is in the way of the second. -/
  | blocked : q.obstacle? after = some .notAContainer → Crossing p q v w root after
  /-- Without the first, the second is past the end of an array. -/
  | early (i length : ℕ) : q.obstacle? root = some (.pastEnd i length) → Crossing p q v w root after

/-- **Behind a common step** two writings cross as they do there. -/
theorem Crossing.cons (hput : s.put? inner root = some after)
    (h : Crossing p q v w ((s.step root).getD .null) inner) :
    Crossing (s :: p) (s :: q) v w root after := by
  obtain ⟨again, hagain, -⟩ := Segment.exists_put?_put? hput inner
  have hstep : (s.step after).getD .null = inner := by
    rw [Segment.step_of_put? hput, Option.getD_some]
  cases h with
  | @commute other both hother hboth hback =>
    obtain ⟨whole, -, hwhole⟩ := Segment.exists_put?_put? hput other
    obtain ⟨done, hdone, hdoneRoot⟩ := Segment.exists_put?_put? hput both
    obtain ⟨done', hdone', hdoneRoot'⟩ := Segment.exists_put?_put? hwhole both
    obtain rfl : done = done' := Option.some_inj.mp (hdoneRoot.symm.trans hdoneRoot')
    refine .commute (inject_cons_iff.mpr ⟨other, hother, hwhole⟩)
      (inject_cons_iff.mpr ⟨both, ?_, hdone⟩) (inject_cons_iff.mpr ⟨both, ?_, hdone'⟩)
    · rw [hstep]
      exact hboth
    · rw [Segment.step_of_put? hwhole]
      exact hback
  | blocked h =>
    refine .blocked ?_
    rw [obstacle?_cons_of_put? hagain, hstep]
    exact h
  | early i length h =>
    refine .early i length ?_
    rw [obstacle?_cons_of_put? hput]
    exact h

/-- **Where the paths part** the second finds behind its step what was there before the first. -/
theorem crossing_of_ne (hne : s ≠ s') (h : inject (s :: p) v root = (after, none)) (q : FieldPath)
    (w : Json) : Crossing (s :: p) (s' :: q) v w root after := by
  obtain ⟨inner, hinner, hput⟩ := inject_cons_iff.mp h
  have hsame : s'.step after = s'.step root := Segment.step_of_put?_of_ne hput (Ne.symm hne)
  rcases hobstacle : q.obstacle? ((s'.step root).getD .null) with _ | o
  · obtain ⟨y, hy⟩ := (obstacle?_eq_none_iff (v := w)).mp hobstacle
    rcases Segment.commute_cases hne hput y with
      ⟨other, both, hother, hboth, hback⟩ | hblocked | ⟨i, length, hearly⟩
    · refine .commute (inject_cons_iff.mpr ⟨y, hy, hother⟩) (inject_cons_iff.mpr ⟨y, ?_, hboth⟩)
        (inject_cons_iff.mpr ⟨inner, ?_, hback⟩)
      · rw [hsame]
        exact hy
      · rw [Segment.step_of_put?_of_ne hother hne]
        exact hinner
    · exact .blocked (obstacle?_cons_of_obstacle hblocked)
    · exact .early i length (obstacle?_cons_of_obstacle hearly)
  · -- The second would fail behind its step, unless the step itself is in its way.
    rcases Segment.commute_cases hne hput .null with
      ⟨other, both, hother, hboth, -⟩ | hblocked | ⟨i, length, hearly⟩
    · cases o with
      | notAContainer =>
        refine .blocked ?_
        rw [obstacle?_cons_of_put? hboth, hsame]
        exact hobstacle
      | pastEnd i length =>
        refine .early i length ?_
        rw [obstacle?_cons_of_put? hother]
        exact hobstacle
    · exact .blocked (obstacle?_cons_of_obstacle hblocked)
    · exact .early i length (obstacle?_cons_of_obstacle hearly)

/-- **Two writings that do not meet** cross in one of the three ways, if the first succeeds. -/
theorem crossing (hpq : ¬p <+: q) (hqp : ¬q <+: p) (h : p.inject v root = (after, none))
    (w : Json) : Crossing p q v w root after := by
  induction p generalizing q root after with
  | nil => exact absurd List.nil_prefix hpq
  | cons s rest ih =>
    rcases q with _ | ⟨s', rest'⟩
    · exact absurd List.nil_prefix hqp
    · by_cases hs : s = s'
      · subst hs
        rw [List.cons_prefix_cons, and_iff_right rfl] at hpq hqp
        obtain ⟨inner, hinner, hput⟩ := inject_cons_iff.mp h
        exact Crossing.cons hput (ih hpq hqp hinner)
      · exact crossing_of_ne hs h rest' w

end FieldPath

end CallChain
