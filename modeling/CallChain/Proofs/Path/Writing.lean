import CallChain.Path.Access
import CallChain.Proofs.Entries

/-!
# Reading what was written

Writing at a path and reading at a path obey the laws of a lens: what was written is read back,
writing what is there changes nothing, of two writings the second counts, and what lies apart from
the path stays as it was (`CallChain.FieldPath.inject_laws`).

A path is followed one step at a time, and so are the laws. `CallChain.Segment.put?` writes at one
step: it is defined when the value is, or can become, a container of the right kind with a place
there. Each law is shown for one step first. A writing along a path that succeeds is a writing of
the rest of the path into the place of the first step, put back there
(`CallChain.FieldPath.injectFrom_cons_iff`), so the laws for paths follow by induction.

Objects have to be in canonical form for one of the laws only, that writing what is there changes
nothing: a name is looked for at its place in the order. Writing keeps the form.
-/

set_option autoImplicit false

namespace CallChain

/-! ### Canonical form -/

namespace Json

theorem canonicalItems_iff {items : List Json} :
    CanonicalItems items ↔ ∀ j ∈ items, j.Canonical := by
  induction items with
  | nil => simp [CanonicalItems]
  | cons j rest ih => rw [CanonicalItems, ih, List.forall_mem_cons]

theorem canonicalMembers_iff {members : Members} :
    CanonicalMembers members ↔ ∀ m ∈ members, m.2.Canonical := by
  induction members with
  | nil => simp [CanonicalMembers]
  | cons m rest ih => rw [CanonicalMembers, ih, List.forall_mem_cons]

theorem canonical_arr_iff {items : List Json} :
    (arr items).Canonical ↔ ∀ j ∈ items, j.Canonical := by
  rw [Canonical, canonicalItems_iff]

theorem canonical_obj_iff {members : Members} :
    (obj members).Canonical ↔ Entries.Ordered members ∧ ∀ m ∈ members, m.2.Canonical := by
  rw [Canonical, canonicalMembers_iff]
  rfl

end Json

/-! ### One step -/

namespace Segment

/-- **Writes at one step**, if there is a place: a member of an object, an element of an array or
the place behind its last one; null counts as an empty container. -/
def put? : Segment → Json → Json → Option Json
  | .field name, inner, current =>
    current.asMembers?.map fun members => .obj (Entries.insert name inner members)
  | .index i, inner, current =>
    current.asItems?.bind fun items =>
      if i < items.length then some (.arr (items.set i inner))
      else if i = items.length then some (.arr (items ++ [inner]))
      else none

variable {s s' : Segment} {inner inner' current after : Json}

theorem put?_field_eq_some_iff {name : String} :
    (field name).put? inner current = some after ↔
      ∃ members, current.asMembers? = some members ∧
        after = .obj (Entries.insert name inner members) := by
  rw [put?, Option.map_eq_some_iff]
  simp only [eq_comm (b := after)]

/-- An element is written in place or behind the last one. -/
theorem put?_index_eq_some_iff {i : ℕ} :
    (index i).put? inner current = some after ↔
      ∃ items, current.asItems? = some items ∧
        (i < items.length ∧ after = .arr (items.set i inner) ∨
          i = items.length ∧ after = .arr (items ++ [inner])) := by
  rw [put?, Option.bind_eq_some_iff]
  refine exists_congr fun items => and_congr_right fun _ => ?_
  rcases Nat.lt_trichotomy i items.length with hlt | heq | hgt
  · simp [hlt, Nat.ne_of_lt hlt, eq_comm]
  · simp [heq, eq_comm]
  · simp [Nat.not_lt.mpr (Nat.le_of_lt hgt), Nat.ne_of_gt hgt]

/-- Null has no members, as an empty object. -/
theorem step_field (name : String) (current : Json) :
    (field name).step current = current.asMembers?.bind (Entries.get? · name) := by
  cases current <;> rfl

/-- Null has no elements, as an empty array. -/
theorem step_index (i : ℕ) (current : Json) :
    (index i).step current = current.asItems?.bind (·[i]?) := by
  cases current <;> rfl

/-- What was written at a step is there. -/
theorem step_of_put? (h : s.put? inner current = some after) : s.step after = some inner := by
  cases s with
  | field name =>
    obtain ⟨members, -, rfl⟩ := put?_field_eq_some_iff.mp h
    exact Entries.get?_insert_self name inner members
  | index i =>
    obtain ⟨items, -, ⟨hlt, rfl⟩ | ⟨rfl, rfl⟩⟩ := put?_index_eq_some_iff.mp h
    · exact List.getElem?_set_self hlt
    · exact List.getElem?_concat_length

/-- What is there can be written, and that changes nothing. -/
theorem put?_of_step (hcanonical : current.Canonical) (h : s.step current = some inner) :
    s.put? inner current = some current := by
  cases s with
  | field name =>
    cases current with
    | obj members =>
      have hordered := (Json.canonical_obj_iff.mp hcanonical).1
      refine put?_field_eq_some_iff.mpr ⟨members, rfl, ?_⟩
      rw [Entries.insert_eq_self hordered h]
    | _ => cases h
  | index i =>
    cases current with
    | arr items =>
      obtain ⟨hlt, hget⟩ := List.getElem?_eq_some_iff.mp h
      refine put?_index_eq_some_iff.mpr ⟨items, rfl, Or.inl ⟨hlt, ?_⟩⟩
      rw [← hget, List.set_getElem_self]
    | _ => cases h

/-- Of two writings at a step the second counts. -/
theorem exists_put?_put? (h : s.put? inner current = some after) (inner' : Json) :
    ∃ after', s.put? inner' after = some after' ∧ s.put? inner' current = some after' := by
  cases s with
  | field name =>
    obtain ⟨members, hmembers, rfl⟩ := put?_field_eq_some_iff.mp h
    exact ⟨_, put?_field_eq_some_iff.mpr ⟨_, rfl, by rw [Entries.insert_insert]⟩,
      put?_field_eq_some_iff.mpr ⟨members, hmembers, rfl⟩⟩
  | index i =>
    obtain ⟨items, hitems, ⟨hlt, rfl⟩ | ⟨rfl, rfl⟩⟩ := put?_index_eq_some_iff.mp h
    · refine ⟨_, put?_index_eq_some_iff.mpr ⟨_, rfl, Or.inl ⟨by simpa using hlt, rfl⟩⟩, ?_⟩
      exact put?_index_eq_some_iff.mpr ⟨items, hitems, Or.inl ⟨hlt, by rw [List.set_set]⟩⟩
    · -- The element was appended, and now it is there.
      refine ⟨_, put?_index_eq_some_iff.mpr ⟨_, rfl, Or.inl ⟨by simp, rfl⟩⟩, ?_⟩
      refine put?_index_eq_some_iff.mpr ⟨items, hitems, Or.inr ⟨rfl, ?_⟩⟩
      rw [List.set_append_right _ _ (Nat.le_refl _), Nat.sub_self, List.set_cons_zero]

/-- **Writing at one step leaves the others alone**, also those to a container of the other kind:
to null neither kind of step leads anywhere. -/
theorem step_of_put?_of_ne (h : s.put? inner current = some after) (hne : s' ≠ s) :
    s'.step after = s'.step current := by
  cases s with
  | field name =>
    obtain ⟨members, hmembers, rfl⟩ := put?_field_eq_some_iff.mp h
    cases s' with
    | field other =>
      rw [step_field, step_field, hmembers]
      exact Entries.get?_insert_of_ne (fun he => hne (congrArg field he)) inner members
    | index j =>
      cases current with
      | null => rfl
      | obj _ => rfl
      | _ => cases hmembers
  | index i =>
    obtain ⟨items, hitems, hplace⟩ := put?_index_eq_some_iff.mp h
    cases s' with
    | field other =>
      obtain ⟨items', rfl⟩ : ∃ items', after = .arr items' := by
        rcases hplace with ⟨-, rfl⟩ | ⟨-, rfl⟩
        · exact ⟨_, rfl⟩
        · exact ⟨_, rfl⟩
      cases current with
      | null => rfl
      | arr _ => rfl
      | _ => cases hitems
    | index j =>
      have hji : i ≠ j := fun he => hne (congrArg index he.symm)
      rw [step_index, step_index, hitems]
      rcases hplace with ⟨-, rfl⟩ | ⟨rfl, rfl⟩
      · exact List.getElem?_set_ne hji
      · change (items ++ [inner])[j]? = items[j]?
        rcases Nat.lt_or_gt_of_ne hji with hgt | hlt
        · rw [List.getElem?_eq_none (by simp; omega), List.getElem?_eq_none (by omega)]
        · exact List.getElem?_append_left hlt

/-- What lies behind a step of a canonical value is canonical. -/
theorem canonical_of_step (hcanonical : current.Canonical) (h : s.step current = some inner) :
    inner.Canonical := by
  cases s with
  | field name =>
    cases current with
    | obj members =>
      exact (Json.canonical_obj_iff.mp hcanonical).2 (name, inner) (Entries.mem_of_get?_eq_some h)
    | _ => cases h
  | index i =>
    cases current with
    | arr items => exact Json.canonical_arr_iff.mp hcanonical inner (List.mem_of_getElem? h)
    | _ => cases h

/-- Writing a canonical value at one step keeps the canonical form. -/
theorem canonical_of_put? (hcanonical : current.Canonical) (hinner : inner.Canonical)
    (h : s.put? inner current = some after) : after.Canonical := by
  cases s with
  | field name =>
    obtain ⟨members, hmembers, rfl⟩ := put?_field_eq_some_iff.mp h
    have hold : Entries.Ordered members ∧ ∀ m ∈ members, m.2.Canonical := by
      cases current with
      | null =>
        cases hmembers
        exact ⟨List.Pairwise.nil, by simp⟩
      | obj members =>
        cases hmembers
        exact Json.canonical_obj_iff.mp hcanonical
      | _ => cases hmembers
    refine Json.canonical_obj_iff.mpr ⟨Entries.ordered_insert hold.1 name inner, fun m hm => ?_⟩
    rcases Entries.eq_or_mem_of_mem_insert hm with rfl | hmem
    · exact hinner
    · exact hold.2 m hmem
  | index i =>
    obtain ⟨items, hitems, hplace⟩ := put?_index_eq_some_iff.mp h
    have hold : ∀ j ∈ items, j.Canonical := by
      cases current with
      | null =>
        cases hitems
        simp
      | arr items =>
        cases hitems
        exact Json.canonical_arr_iff.mp hcanonical
      | _ => cases hitems
    rcases hplace with ⟨-, rfl⟩ | ⟨-, rfl⟩
    · refine Json.canonical_arr_iff.mpr fun j hj => ?_
      rcases List.mem_or_eq_of_mem_set hj with hmem | rfl
      · exact hold j hmem
      · exact hinner
    · refine Json.canonical_arr_iff.mpr fun j hj => ?_
      rcases List.mem_append.mp hj with hmem | hlast
      · exact hold j hmem
      · exact List.mem_singleton.mp hlast ▸ hinner

end Segment

/-! ### Paths -/

namespace FieldPath

variable {path path' p : FieldPath} {steps steps' : ℕ} {s : Segment} {v w root after : Json}

/-- **A writing along a path succeeds** when the rest of the path is written into what the first
step leads to, or into null, and the outcome can be put there. -/
theorem injectFrom_cons_iff :
    injectFrom path v steps (s :: p) root = (after, none) ↔
      ∃ inner, injectFrom path v (steps + 1) p ((s.step root).getD .null) = (inner, none) ∧
        s.put? inner root = some after := by
  cases s with
  | field name =>
    rw [injectFrom, Segment.step_field]
    simp only [Segment.put?]
    rcases root.asMembers? with _ | members
    · simp
    · rcases hinner : injectFrom path v (steps + 1) p ((Entries.get? members name).getD .null) with
        ⟨inner, e⟩
      simp [hinner, and_comm, and_assoc]
  | index i =>
    rw [injectFrom, Segment.step_index]
    simp only [Segment.put?]
    rcases root.asItems? with _ | items
    · simp
    · rcases hinner : injectFrom path v (steps + 1) p ((items[i]?).getD .null) with ⟨inner, e⟩
      simp only [Option.bind_some, hinner]
      rcases Nat.lt_trichotomy i items.length with hlt | rfl | hgt
      · simp [hlt, and_comm, and_assoc]
      · -- Behind the last element there is nothing yet, which counts as null.
        have hnull : injectFrom path v (steps + 1) p .null = (inner, e) := by simpa using hinner
        simp [hnull, and_comm, and_assoc]
      · simp [Nat.not_lt.mpr (Nat.le_of_lt hgt), Nat.ne_of_gt hgt]

/-- What is written where does not depend on what the errors would have to tell. -/
theorem injectFrom_eq_iff :
    injectFrom path v steps p root = (after, none) ↔
      injectFrom path' v steps' p root = (after, none) := by
  induction p generalizing steps steps' root after with
  | nil => exact Iff.rfl
  | cons s rest ih =>
    rw [injectFrom_cons_iff, injectFrom_cons_iff]
    exact exists_congr fun inner => and_congr_left fun _ => ih

/-- What was written is read back. -/
theorem extract_of_injectFrom (h : injectFrom path v steps p root = (after, none)) :
    p.extract after = some v := by
  induction p generalizing steps root after with
  | nil =>
    cases h
    rfl
  | cons s rest ih =>
    obtain ⟨inner, hinner, hput⟩ := injectFrom_cons_iff.mp h
    rw [extract, Segment.step_of_put? hput]
    exact ih hinner

/-- What is there can be written, and that changes nothing. -/
theorem injectFrom_of_extract (hcanonical : root.Canonical) (h : p.extract root = some v) :
    injectFrom path v steps p root = (root, none) := by
  induction p generalizing steps root with
  | nil =>
    cases h
    rfl
  | cons s rest ih =>
    obtain ⟨inner, hstep, hextract⟩ := Option.bind_eq_some_iff.mp h
    refine injectFrom_cons_iff.mpr ⟨inner, ?_, Segment.put?_of_step hcanonical hstep⟩
    rw [hstep]
    exact ih (Segment.canonical_of_step hcanonical hstep) hextract

/-- Of two writings the second counts, wherever the first of them succeeds. -/
theorem exists_injectFrom_injectFrom (h : injectFrom path v steps p root = (after, none))
    (path' : FieldPath) (steps' : ℕ) (w : Json) :
    ∃ after', injectFrom path' w steps' p after = (after', none) ∧
      injectFrom path' w steps' p root = (after', none) := by
  induction p generalizing steps steps' root after with
  | nil => exact ⟨w, rfl, rfl⟩
  | cons s rest ih =>
    obtain ⟨inner, hinner, hput⟩ := injectFrom_cons_iff.mp h
    obtain ⟨inner', hagain, halone⟩ := ih hinner (steps' + 1)
    obtain ⟨after', hputagain, hputalone⟩ := Segment.exists_put?_put? hput inner'
    refine ⟨after', injectFrom_cons_iff.mpr ⟨inner', ?_, hputagain⟩,
      injectFrom_cons_iff.mpr ⟨inner', halone, hputalone⟩⟩
    rw [Segment.step_of_put? hput]
    exact hagain

/-- Nothing can be read from null but null itself. -/
theorem extract_null {q : FieldPath} (hq : q ≠ []) : q.extract .null = none := by
  obtain ⟨s, rest, rfl⟩ := List.exists_cons_of_ne_nil hq
  cases s <;> rfl

/-- **What lies apart from the path stays as it was**, found or not. Where the paths part, the steps
differ; before that, what is not there counts as null, and there is nothing to be read from null. -/
theorem extract_of_injectFrom_of_not_prefix (h : injectFrom path v steps p root = (after, none))
    {q : FieldPath} (hpq : ¬p <+: q) (hqp : ¬q <+: p) : q.extract after = q.extract root := by
  induction p generalizing steps root after q with
  | nil => exact absurd (List.nil_prefix) hpq
  | cons s rest ih =>
    rcases q with _ | ⟨s', rest'⟩
    · exact absurd (List.nil_prefix) hqp
    · obtain ⟨inner, hinner, hput⟩ := injectFrom_cons_iff.mp h
      by_cases hs : s' = s
      · subst hs
        rw [List.cons_prefix_cons, and_iff_right rfl] at hpq hqp
        have hne : rest' ≠ [] := fun hnil => hqp (hnil ▸ List.nil_prefix)
        rw [extract, extract, Segment.step_of_put? hput, Option.bind_some, ih hinner hpq hqp]
        cases s'.step root with
        | none => exact extract_null hne
        | some current => rfl
      · rw [extract, extract, Segment.step_of_put?_of_ne hput hs]

/-- Writing a canonical value keeps the canonical form. -/
theorem canonical_of_injectFrom (hcanonical : root.Canonical) (hv : v.Canonical)
    (h : injectFrom path v steps p root = (after, none)) : after.Canonical := by
  induction p generalizing steps root after with
  | nil =>
    cases h
    exact hv
  | cons s rest ih =>
    obtain ⟨inner, hinner, hput⟩ := injectFrom_cons_iff.mp h
    refine Segment.canonical_of_put? hcanonical (ih ?_ hinner) hput
    rcases hstep : s.step root with _ | current
    · exact trivial
    · exact Segment.canonical_of_step hcanonical hstep

/-! ### The laws -/

/-- **The laws of writing and reading at a path**, for all values and all paths, the empty one too.
What was written is read back. Writing what is there succeeds and changes nothing. When a writing
succeeds, so does the next one to the same place, and the outcome is that of the second alone.
Whatever lies apart from the path is read as before, found or not. The canonical form is kept, so
the laws hold again for what was left. -/
theorem inject_laws (p : FieldPath) (v w root : Json) :
    (∀ after, p.inject v root = (after, none) → p.extract after = some v) ∧
      (root.Canonical → p.extract root = some v → p.inject v root = (root, none)) ∧
      (∀ after, p.inject v root = (after, none) →
        ∃ after', p.inject w after = (after', none) ∧ p.inject w root = (after', none)) ∧
      (∀ (after : Json) (q : FieldPath), p.inject v root = (after, none) → ¬p <+: q → ¬q <+: p →
        q.extract after = q.extract root) ∧
      ∀ after, root.Canonical → v.Canonical → p.inject v root = (after, none) → after.Canonical :=
  ⟨fun _ h => extract_of_injectFrom h,
    fun hcanonical h => injectFrom_of_extract hcanonical h,
    fun _ h => exists_injectFrom_injectFrom h p 0 w,
    fun _ _ h hpq hqp => extract_of_injectFrom_of_not_prefix h hpq hqp,
    fun _ hcanonical hv h => canonical_of_injectFrom hcanonical hv h⟩

/-- The id of the first item. -/
def itemId : FieldPath := [.field "items", .index 0, .field "id"]

/-- One item with an id. -/
def oneItem (id : String) : Json := .obj [("items", .arr [.obj [("id", .str id)]])]

/-- Two containers are created on the way to the id of the first item. -/
theorem inject_laws_itemId :
    itemId.inject (.str "a") (.obj [("items", .null)]) = (oneItem "a", none) ∧
      itemId.extract (oneItem "a") = some (.str "a") ∧
      itemId.inject (.str "a") (oneItem "a") = (oneItem "a", none) ∧
      (∃ after, itemId.inject (.str "b") (oneItem "a") = (after, none) ∧
        itemId.inject (.str "b") (.obj [("items", .null)]) = (after, none)) ∧
      extract [.field "items", .index 1] (oneItem "a") =
        extract [.field "items", .index 1] (.obj [("items", .null)]) ∧
      (oneItem "a").Canonical := by
  have hwritten : itemId.inject (.str "a") (.obj [("items", .null)]) = (oneItem "a", none) := by
    rfl
  have hroot : (Json.obj [("items", .null)]).Canonical := by
    simp [Json.Canonical, Json.CanonicalMembers]
  obtain ⟨hread, -, hsecond, happart, hkept⟩ :=
    inject_laws itemId (.str "a") (.str "b") (.obj [("items", .null)])
  have hcanonical : (oneItem "a").Canonical := hkept _ hroot trivial hwritten
  exact ⟨hwritten, hread _ hwritten,
    (inject_laws itemId (.str "a") (.str "b") (oneItem "a")).2.1 hcanonical (hread _ hwritten),
    hsecond _ hwritten,
    happart _ [.field "items", .index 1] hwritten (by decide) (by decide), hcanonical⟩

end FieldPath

end CallChain
