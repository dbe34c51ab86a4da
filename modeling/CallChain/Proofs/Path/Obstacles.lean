import CallChain.Proofs.Path.Writing

/-!
# What is in the way of a writing

A writing fails where it meets a value that is no container of the right kind, or an array that ends
before the index. Which of them it meets first depends on the path and on the document, and not on
the value to be written.

* `CallChain.Segment.obstacle?`, `CallChain.FieldPath.obstacle?`: what is in the way at one step and
  along a path.
* `CallChain.FieldPath.injectFrom_of_obstacle`, `CallChain.FieldPath.exists_injectFrom_of_free`: the
  two ways in which a writing can go on.
* `CallChain.FieldPath.exists_snd_injectFrom_eq`: the error of a writing is told by the obstacle.
-/

set_option autoImplicit false

namespace CallChain

/-! ### Obstacles -/

/-- **What is in the way of a writing**: a value that is no container of the right kind, or an array
that ends before the index. -/
inductive Obstacle where
  | notAContainer
  | pastEnd (index length : ℕ)
deriving DecidableEq

/-- The error that reports an obstacle after some steps of a path. -/
def Obstacle.error (path : FieldPath) (steps : ℕ) : Obstacle → InjectError
  | .notAContainer => .notAContainer path steps
  | .pastEnd index length => .indexOutOfRange path steps index length

namespace Segment

variable {s : Segment} {inner current after : Json} {o : Obstacle}

/-- **What is in the way at one step.** -/
def obstacle? : Segment → Json → Option Obstacle
  | .field _, current =>
    match current.asMembers? with
    | some _ => none
    | none => some .notAContainer
  | .index i, current =>
    match current.asItems? with
    | some items => if items.length < i then some (.pastEnd i items.length) else none
    | none => some .notAContainer

/-- The value that a step starts from: null is an empty container, of the kind that the step leads
into. -/
def opened : Segment → Json → Json
  | .field _, .null => .obj []
  | .index _, .null => .arr []
  | _, current => current

theorem opened_of_ne_null (h : current ≠ .null) : s.opened current = current := by
  cases s with
  | field name | index i =>
    cases current with
    | null => exact absurd rfl h
    | _ => rfl

/-- **Nothing is in the way where a value can be put.** -/
theorem obstacle?_eq_none_iff :
    s.obstacle? current = none ↔ ∃ after, s.put? inner current = some after := by
  rw [← Option.isSome_iff_exists]
  cases s with
  | field name =>
    rw [obstacle?, put?]
    cases current.asMembers? with
    | none | some members => simp
  | index i =>
    rw [obstacle?, put?]
    cases current.asItems? with
    | none => simp
    | some items =>
      rw [Option.bind_some]
      rcases Nat.lt_trichotomy i items.length with hlt | rfl | hgt
      · simp [hlt, Nat.not_lt.mpr (Nat.le_of_lt hlt)]
      · simp
      · simp [hgt, Nat.not_lt.mpr (Nat.le_of_lt hgt), Nat.ne_of_gt hgt]

/-- Where a value was put, another one can be put. -/
theorem obstacle?_of_put? (h : s.put? inner current = some after) : s.obstacle? after = none := by
  obtain ⟨after', hafter', -⟩ := exists_put?_put? h inner
  exact obstacle?_eq_none_iff.mpr ⟨after', hafter'⟩

theorem opened_opened (s : Segment) (current : Json) :
    s.opened (s.opened current) = s.opened current := by
  cases s with
  | field name | index i => cases current <;> rfl

/-- An obstacle is still there when null was made a container. -/
theorem obstacle?_opened (s : Segment) (current : Json) :
    s.obstacle? (s.opened current) = s.obstacle? current := by
  cases s with
  | field name | index i => cases current <;> rfl

/-- In null only an index can be in the way, and it is past the end of an empty array. -/
theorem exists_pastEnd_of_null (h : s.obstacle? .null = some o) : ∃ i, o = .pastEnd i 0 := by
  cases s with
  | field name => cases h
  | index i =>
    rw [obstacle?, Json.asItems?] at h
    dsimp only at h
    split at h
    · cases h
      exact ⟨i, rfl⟩
    · cases h

end Segment

namespace FieldPath

variable {path p : FieldPath} {s : Segment} {steps : ℕ} {v root : Json} {o : Obstacle}

/-- **What is in the way along a path**, first of all. What is not there counts as null. -/
def obstacle? : FieldPath → Json → Option Obstacle
  | [], _ => none
  | s :: rest, current =>
    match s.obstacle? current with
    | some o => some o
    | none => obstacle? rest ((s.step current).getD .null)

/-- **A writing stops at an obstacle**, and leaves a container there. -/
theorem injectFrom_of_obstacle (h : s.obstacle? root = some o) :
    injectFrom path v steps (s :: p) root = (s.opened root, some (o.error path steps)) := by
  cases s with
  | field name =>
    rw [Segment.obstacle?] at h
    split at h
    · cases h
    · rename_i hmembers
      cases h
      rw [injectFrom, hmembers, Segment.opened_of_ne_null]
      · rfl
      · rintro rfl
        cases hmembers
  | index i =>
    rw [Segment.obstacle?] at h
    split at h
    · rename_i items hitems
      split at h
      · rename_i hlt
        cases h
        have hopened : (Segment.index i).opened root = .arr items := by
          cases root with
          | null | arr items' =>
            cases hitems
            rfl
          | _ => cases hitems
        rw [injectFrom, hitems, hopened]
        dsimp only
        rw [if_neg (by omega), if_neg (by omega)]
        rfl
      · cases h
    · rename_i hitems
      cases h
      rw [injectFrom, hitems, Segment.opened_of_ne_null]
      · rfl
      · rintro rfl
        cases hitems

/-- **Where nothing is in the way a writing goes on** into what the step leads to, or into null, and
puts back what comes of it. -/
theorem exists_injectFrom_of_free (h : s.obstacle? root = none) (path : FieldPath) (v : Json)
    (steps : ℕ) (p : FieldPath) :
    ∃ inner e? after,
      injectFrom path v (steps + 1) p ((s.step root).getD .null) = (inner, e?) ∧
        s.put? inner root = some after ∧
        injectFrom path v steps (s :: p) root = (after, e?) := by
  rcases hinner : injectFrom path v (steps + 1) p ((s.step root).getD .null) with ⟨inner, e?⟩
  obtain ⟨after, hafter⟩ : ∃ after, s.put? inner root = some after :=
    Segment.obstacle?_eq_none_iff.mp h
  refine ⟨inner, e?, after, rfl, hafter, ?_⟩
  cases s with
  | field name =>
    rw [Segment.step_field] at hinner
    obtain ⟨members, hmembers, rfl⟩ := Segment.put?_field_eq_some_iff.mp hafter
    rw [hmembers, Option.bind_some] at hinner
    rw [injectFrom, hmembers]
    dsimp only
    rw [hinner]
  | index i =>
    rw [Segment.step_index] at hinner
    obtain ⟨items, hitems, ⟨hlt, rfl⟩ | ⟨rfl, rfl⟩⟩ := Segment.put?_index_eq_some_iff.mp hafter
    · rw [hitems, Option.bind_some] at hinner
      rw [injectFrom, hitems]
      dsimp only
      rw [if_pos hlt, hinner]
    · -- Behind the last element there is nothing yet.
      have hnull : items[items.length]? = none := List.getElem?_eq_none (Nat.le_refl _)
      rw [hitems, Option.bind_some, hnull, Option.getD_none] at hinner
      rw [injectFrom, hitems]
      dsimp only
      rw [if_neg (Nat.lt_irrefl _), if_pos rfl, hinner]

/-- **Whether a writing fails, and why**, is told by the obstacle alone. -/
theorem exists_snd_injectFrom_eq (path : FieldPath) (v : Json) (steps : ℕ) (p : FieldPath)
    (root : Json) :
    ∃ k, (injectFrom path v steps p root).2 = (p.obstacle? root).map (·.error path k) := by
  induction p generalizing steps root with
  | nil => exact ⟨0, rfl⟩
  | cons s rest ih =>
    rw [obstacle?]
    rcases hs : s.obstacle? root with _ | o
    · obtain ⟨inner, e?, after, hinner, -, hgo⟩ := exists_injectFrom_of_free hs path v steps rest
      obtain ⟨k, hk⟩ := ih (steps + 1) ((s.step root).getD .null)
      rw [hinner] at hk
      exact ⟨k, by rw [hgo]; exact hk⟩
    · exact ⟨steps, by rw [injectFrom_of_obstacle hs]; rfl⟩

end FieldPath

end CallChain
