import CallChain.Proofs.Path.Obstacles

/-!
# What a failed writing leaves

A writing creates containers on its way, before it knows whether it gets to its end. Still nothing
is lost when it fails, and what it leaves is well determined.

* `CallChain.GrownAlong`: a value in which containers were created along a path. Nothing that was
  there is lost (`CallChain.GrownAlong.keepsThroughout`).
* `CallChain.FieldPath.inject_failure_laws`: what is left after a failure.

The reason is one invariant: once something has been created, all that lies before the writing is
null. In null there is a place for every name and for the index zero, so from there on a writing can
only fail at an index into an empty array (`CallChain.FieldPath.isAtEmpty_of_injectFrom_null`). All
other failures come before anything was created.
-/

set_option autoImplicit false

namespace CallChain

/-! ### Where failures come from -/

/-- The errors of an index into an empty array. -/
def InjectError.IsAtEmpty (e : InjectError) : Prop :=
  ∃ path steps index, e = .indexOutOfRange path steps index 0

namespace FieldPath

variable {path p rest : FieldPath} {s : Segment} {steps : ℕ} {v root left : Json} {e : InjectError}

/-- **In null a writing can only fail at an index into an empty array.** -/
theorem isAtEmpty_of_injectFrom_null (h : injectFrom path v steps p .null = (left, some e)) :
    e.IsAtEmpty := by
  induction p generalizing steps left with
  | nil => cases h
  | cons s rest ih =>
    rcases hs : s.obstacle? .null with _ | o
    · obtain ⟨inner, e?, after, hinner, -, hgo⟩ := exists_injectFrom_of_free hs path v steps rest
      obtain ⟨-, rfl⟩ := Prod.mk.inj (hgo.symm.trans h)
      -- Neither kind of step leads anywhere in null.
      have hnull : s.step .null = none := by
        cases s with
        | field name | index i => rfl
      rw [hnull] at hinner
      exact ih hinner
    · obtain ⟨i, rfl⟩ := Segment.exists_pastEnd_of_null hs
      rw [injectFrom_of_obstacle hs] at h
      cases h
      exact ⟨path, steps, i, rfl⟩

/-- **Any other failure comes before anything was created**, and leaves the value as it was. -/
theorem eq_of_injectFrom_eq_error (hcanonical : root.Canonical)
    (h : injectFrom path v steps p root = (left, some e)) (he : ¬e.IsAtEmpty) : left = root := by
  induction p generalizing steps root left with
  | nil => cases h
  | cons s rest ih =>
    rcases hs : s.obstacle? root with _ | o
    · obtain ⟨inner, e?, after, hinner, hput, hgo⟩ := exists_injectFrom_of_free hs path v steps rest
      obtain ⟨rfl, rfl⟩ := Prod.mk.inj (hgo.symm.trans h)
      rcases hstep : s.step root with _ | current
      · rw [hstep] at hinner
        exact absurd (isAtEmpty_of_injectFrom_null hinner) he
      · rw [hstep, Option.getD_some] at hinner
        have hsame : inner = current := ih (Segment.canonical_of_step hcanonical hstep) hinner
        have hback := Segment.put?_of_step hcanonical hstep
        rw [← hsame, hput, Option.some_inj] at hback
        exact hback
    · rw [injectFrom_of_obstacle hs] at h
      cases h
      refine Segment.opened_of_ne_null ?_
      rintro rfl
      obtain ⟨i, rfl⟩ := Segment.exists_pastEnd_of_null hs
      exact he ⟨path, steps, i, rfl⟩

/-- **What a failure leaves is stuck**: no other value can be written there either, and the next
attempt fails for the same reason and changes nothing. -/
theorem injectFrom_of_failed (h : injectFrom path v steps p root = (left, some e)) (w : Json) :
    injectFrom path w steps p left = (left, some e) := by
  induction p generalizing steps root left with
  | nil => cases h
  | cons s rest ih =>
    rcases hs : s.obstacle? root with _ | o
    · obtain ⟨inner, e?, after, hinner, hput, hgo⟩ := exists_injectFrom_of_free hs path v steps rest
      obtain ⟨rfl, rfl⟩ := Prod.mk.inj (hgo.symm.trans h)
      obtain ⟨inner', e?', after', hinner', hput', hgo'⟩ :=
        exists_injectFrom_of_free (Segment.obstacle?_of_put? hput) path w steps rest
      rw [Segment.step_of_put? hput, Option.getD_some, ih hinner] at hinner'
      obtain ⟨rfl, rfl⟩ := Prod.mk.inj hinner'
      -- The same is put at the same place once more.
      obtain ⟨again, hagain, hfirst⟩ := Segment.exists_put?_put? hput inner
      have hafter : after' = after := by
        rw [hput', Option.some_inj] at hagain
        rw [hput, Option.some_inj] at hfirst
        rw [hagain, hfirst]
      rw [hgo', hafter]
    · have hagain : s.obstacle? (s.opened root) = some o := by rw [Segment.obstacle?_opened, hs]
      rw [injectFrom_of_obstacle hs] at h
      cases h
      rw [injectFrom_of_obstacle hagain, Segment.opened_opened]

end FieldPath

/-! ### Growth -/

/-- **A value in which containers were created along a path.** On the way null may have become a
container, a member may have been added, null at first, and an array may have got one more element;
nothing else has changed. -/
inductive GrownAlong : FieldPath → Json → Json → Prop
  /-- Nothing was created. -/
  | same (p : FieldPath) (j : Json) : GrownAlong p j j
  /-- Null has become an object. -/
  | object {name : String} {rest : FieldPath} {after : Json} :
    GrownAlong (.field name :: rest) (.obj []) after → GrownAlong (.field name :: rest) .null after
  /-- Null has become an array. -/
  | array {i : ℕ} {rest : FieldPath} {after : Json} :
    GrownAlong (.index i :: rest) (.arr []) after → GrownAlong (.index i :: rest) .null after
  /-- A member has grown. -/
  | member {name : String} {rest : FieldPath} {members : Members} {current after : Json} :
    Entries.get? members name = some current → GrownAlong rest current after →
    GrownAlong (.field name :: rest) (.obj members) (.obj (Entries.insert name after members))
  /-- A member was added. -/
  | newMember {name : String} {rest : FieldPath} {members : Members} {after : Json} :
    Entries.get? members name = none → GrownAlong rest .null after →
    GrownAlong (.field name :: rest) (.obj members) (.obj (Entries.insert name after members))
  /-- An element has grown. -/
  | element {i : ℕ} {rest : FieldPath} {items : List Json} {current after : Json} :
    items[i]? = some current → GrownAlong rest current after →
    GrownAlong (.index i :: rest) (.arr items) (.arr (items.set i after))
  /-- An element was added at the end. -/
  | newElement {rest : FieldPath} {items : List Json} {after : Json} :
    GrownAlong rest .null after →
    GrownAlong (.index items.length :: rest) (.arr items) (.arr (items ++ [after]))

/-- **Nothing of a value is lost**: an object has all its names, an array its length, any other
value is the same. Null may have become anything. -/
def Json.Keeps : Json → Json → Prop
  | .null, _ => True
  | .obj members, after => ∃ members', after = .obj members' ∧
      ∀ name, Entries.has members name = true → Entries.has members' name = true
  | .arr items, after => ∃ items', after = .arr items' ∧ items.length ≤ items'.length
  | current, after => after = current

theorem Json.Keeps.refl (j : Json) : j.Keeps j := by
  cases j with
  | null => trivial
  | obj members => exact ⟨members, rfl, fun _ h => h⟩
  | arr items => exact ⟨items, rfl, Nat.le_refl _⟩
  | bool | num | str => rfl

namespace GrownAlong

variable {s : Segment} {rest p : FieldPath} {root inner after : Json}

/-- What has grown and is put back has grown. -/
theorem of_put? (hgrown : GrownAlong rest ((s.step root).getD .null) inner)
    (h : s.put? inner root = some after) : GrownAlong (s :: rest) root after := by
  cases s with
  | field name =>
    obtain ⟨members, hmembers, rfl⟩ := Segment.put?_field_eq_some_iff.mp h
    rw [Segment.step_field, hmembers, Option.bind_some] at hgrown
    have hobject : GrownAlong (.field name :: rest) (.obj members)
        (.obj (Entries.insert name inner members)) := by
      rcases hget : Entries.get? members name with _ | current
      · rw [hget] at hgrown
        exact newMember hget hgrown
      · rw [hget] at hgrown
        exact member hget hgrown
    cases root with
    | null =>
      cases hmembers
      exact object hobject
    | obj members' =>
      cases hmembers
      exact hobject
    | _ => cases hmembers
  | index i =>
    obtain ⟨items, hitems, hplace⟩ := Segment.put?_index_eq_some_iff.mp h
    rw [Segment.step_index, hitems, Option.bind_some] at hgrown
    have harray : GrownAlong (.index i :: rest) (.arr items) after := by
      rcases hplace with ⟨hlt, rfl⟩ | ⟨rfl, rfl⟩
      · have hget : items[i]? = some items[i] := List.getElem?_eq_getElem hlt
        rw [hget] at hgrown
        exact element hget hgrown
      · have hnone : items[items.length]? = none := List.getElem?_eq_none (Nat.le_refl _)
        rw [hnone] at hgrown
        exact newElement hgrown
    cases root with
    | null =>
      cases hitems
      exact array harray
    | arr items' =>
      cases hitems
      exact harray
    | _ => cases hitems

end GrownAlong

/-- **Nothing is lost at any path**: what was found is found, with nothing of it lost. -/
def Json.KeepsThroughout (root after : Json) : Prop :=
  ∀ (q : FieldPath) (j : Json), q.extract root = some j →
    ∃ j', q.extract after = some j' ∧ j.Keeps j'

/-- From null only null itself can be read, so in its place nothing is lost. -/
theorem Json.keepsThroughout_null (after : Json) : Json.null.KeepsThroughout after := by
  intro q j h
  rcases q with _ | ⟨s, rest⟩
  · cases h
    exact ⟨after, rfl, trivial⟩
  · rw [FieldPath.extract_null (List.cons_ne_nil s rest)] at h
    cases h

namespace Segment

variable {s : Segment} {root inner after : Json}

/-- A container that gets another part loses nothing of its own. -/
theorem keeps_of_put? (h : s.put? inner root = some after) : root.Keeps after := by
  cases s with
  | field name =>
    obtain ⟨members, hmembers, rfl⟩ := put?_field_eq_some_iff.mp h
    cases root with
    | null => trivial
    | obj members' =>
      cases hmembers
      exact ⟨_, rfl, fun other hother => Entries.has_insert_iff.mpr (Or.inr hother)⟩
    | _ => cases hmembers
  | index i =>
    obtain ⟨items, hitems, hplace⟩ := put?_index_eq_some_iff.mp h
    cases root with
    | null => trivial
    | arr items' =>
      cases hitems
      rcases hplace with ⟨-, rfl⟩ | ⟨-, rfl⟩
      · exact ⟨_, rfl, by rw [List.length_set]⟩
      · exact ⟨_, rfl, by rw [List.length_append]; omega⟩
    | _ => cases hitems

/-- **Where nothing is lost of a part, nothing is lost of the whole.** -/
theorem keepsThroughout_of_put? (s : Segment) (inner : Json)
    (hinner : ((s.step root).getD .null).KeepsThroughout inner)
    (h : s.put? inner root = some after) : root.KeepsThroughout after := by
  intro q j hj
  rcases q with _ | ⟨s', rest⟩
  · cases hj
    exact ⟨after, rfl, keeps_of_put? h⟩
  · by_cases hs : s' = s
    · subst hs
      obtain ⟨current, hstep, hj⟩ := Option.bind_eq_some_iff.mp hj
      rw [hstep, Option.getD_some] at hinner
      rw [FieldPath.extract, step_of_put? h, Option.bind_some]
      exact hinner rest j hj
    · have hsame : FieldPath.extract (s' :: rest) after = FieldPath.extract (s' :: rest) root := by
        rw [FieldPath.extract, FieldPath.extract, step_of_put?_of_ne h hs]
      exact ⟨j, hsame.trans hj, Json.Keeps.refl j⟩

end Segment

/-- **Growth loses nothing.** -/
theorem GrownAlong.keepsThroughout {p : FieldPath} {root after : Json}
    (h : GrownAlong p root after) : root.KeepsThroughout after := by
  induction h with
  | same p j => exact fun q j hj => ⟨j, hj, Json.Keeps.refl j⟩
  | object _ _ => exact Json.keepsThroughout_null _
  | array _ _ => exact Json.keepsThroughout_null _
  | @member name rest members current after hget _ ih =>
    refine Segment.keepsThroughout_of_put? (.field name) after ?_ rfl
    rw [Segment.step, hget]
    exact ih
  | @newMember name rest members after hget _ ih =>
    refine Segment.keepsThroughout_of_put? (.field name) after ?_ rfl
    rw [Segment.step, hget]
    exact ih
  | @element i rest items current after hget _ ih =>
    obtain ⟨hlt, -⟩ := List.getElem?_eq_some_iff.mp hget
    refine Segment.keepsThroughout_of_put? (.index i) after ?_
      (Segment.put?_index_eq_some_iff.mpr ⟨items, rfl, Or.inl ⟨hlt, rfl⟩⟩)
    rw [Segment.step, hget]
    exact ih
  | @newElement rest items after _ ih =>
    refine Segment.keepsThroughout_of_put? (.index items.length) after ?_
      (Segment.put?_index_eq_some_iff.mpr ⟨items, rfl, Or.inr ⟨rfl, rfl⟩⟩)
    rw [Segment.step, List.getElem?_eq_none (Nat.le_refl _)]
    exact ih

namespace FieldPath

variable {path p : FieldPath} {steps : ℕ} {v root left : Json} {e : InjectError}

/-- **What a failed writing has changed it has created**: the way to the place where it failed. -/
theorem grownAlong_of_injectFrom (h : injectFrom path v steps p root = (left, some e)) :
    GrownAlong p root left := by
  induction p generalizing steps root left with
  | nil => cases h
  | cons s rest ih =>
    rcases hs : s.obstacle? root with _ | o
    · obtain ⟨inner, e?, after, hinner, hput, hgo⟩ := exists_injectFrom_of_free hs path v steps rest
      obtain ⟨rfl, rfl⟩ := Prod.mk.inj (hgo.symm.trans h)
      exact GrownAlong.of_put? (ih hinner) hput
    · rw [injectFrom_of_obstacle hs] at h
      cases h
      cases s with
      | field name =>
        cases root with
        | null => exact .object (.same _ _)
        | _ => exact .same _ _
      | index i =>
        cases root with
        | null => exact .array (.same _ _)
        | _ => exact .same _ _

/-! ### The laws -/

/-- **The laws of a failed writing**, for all values, paths and ways to fail. A value of the wrong
kind on the way, and an index past the end of an array that has elements, leave the value as it was.
An index into an empty array leaves a value in which containers may have been created along the
path, and in which nothing is lost. There are no other failures, and after each of them a second
attempt, with whatever value, fails in the same way and changes nothing. -/
theorem inject_failure_laws {p : FieldPath} {v root left : Json} {e : InjectError}
    (hcanonical : root.Canonical) (h : p.inject v root = (left, some e)) :
    (∃ steps, e = .notAContainer p steps ∨
        ∃ index length, e = .indexOutOfRange p steps index length) ∧
      (∀ steps, e = .notAContainer p steps → left = root) ∧
      (∀ steps index length, e = .indexOutOfRange p steps index length → 0 < length → left = root) ∧
      (∀ steps index, e = .indexOutOfRange p steps index 0 →
        GrownAlong p root left ∧ root.KeepsThroughout left) ∧
      ∀ w, p.inject w left = (left, some e) := by
  have hgrown : GrownAlong p root left := grownAlong_of_injectFrom h
  refine ⟨?_, ?_, ?_, fun _ _ _ => ⟨hgrown, hgrown.keepsThroughout⟩, injectFrom_of_failed h⟩
  · obtain ⟨steps, hsteps⟩ := exists_snd_injectFrom_eq p v 0 p root
    have hsome : (p.obstacle? root).map (·.error p steps) = some e := by
      rw [← hsteps]
      exact congrArg Prod.snd h
    obtain ⟨o, -, rfl⟩ := Option.map_eq_some_iff.mp hsome
    cases o with
    | notAContainer => exact ⟨steps, Or.inl rfl⟩
    | pastEnd index length => exact ⟨steps, Or.inr ⟨index, length, rfl⟩⟩
  · rintro steps rfl
    refine eq_of_injectFrom_eq_error hcanonical h ?_
    rintro ⟨_, _, _, hat⟩
    cases hat
  · rintro steps index length rfl hlength
    refine eq_of_injectFrom_eq_error hcanonical h ?_
    rintro ⟨_, _, _, hat⟩
    cases hat
    exact absurd hlength (Nat.lt_irrefl 0)

/-- The second line of an order. -/
def secondLine : FieldPath := [.field "order", .field "lines", .index 1]

/-- An order that has no lines yet. -/
def emptyOrder : Json := .obj [("order", .null), ("total", .bool true)]

/-- The order with an empty list of lines. -/
def openOrder : Json := .obj [("order", .obj [("lines", .arr [])]), ("total", .bool true)]

/-- **A way is created, and the writing fails at its end**: there is no first line yet. The total is
still there. -/
theorem inject_failure_laws_secondLine :
    secondLine.inject (.str "a") emptyOrder =
        (openOrder, some (.indexOutOfRange secondLine 2 1 0)) ∧
      GrownAlong secondLine emptyOrder openOrder ∧
      (∃ j', extract [.field "total"] openOrder = some j' ∧ (Json.bool true).Keeps j') ∧
      secondLine.inject (.str "b") openOrder =
        (openOrder, some (.indexOutOfRange secondLine 2 1 0)) := by
  have hcanonical : emptyOrder.Canonical := ⟨by decide, trivial, trivial, trivial⟩
  have hfailed : secondLine.inject (.str "a") emptyOrder =
      (openOrder, some (.indexOutOfRange secondLine 2 1 0)) := by
    rfl
  obtain ⟨-, -, -, hatEmpty, hagain⟩ := inject_failure_laws hcanonical hfailed
  obtain ⟨hgrown, hkeeps⟩ := hatEmpty 2 1 rfl
  exact ⟨hfailed, hgrown, hkeeps [.field "total"] (.bool true) rfl, hagain (.str "b")⟩

end FieldPath

end CallChain
