import CallChain.Proofs.Schema.Spelling

/-!
# Values that are their own spelling

To spell `nullable` out touches the objects that look like marked schemas, and no others. So a value
is its own spelling exactly when no object in it looks marked, at whatever depth
(`CallChain.Schema.spellNullable_eq_self_iff`). In what has been spelled out no object does, so the
spelling of a spelling is the same again (`CallChain.Schema.spellNullable_spellNullable`).

* `CallChain.Json.HasObject`: an object in a value, at any depth.
* `CallChain.Schema.Settled`: no object in a value looks marked.
-/

set_option autoImplicit false

namespace CallChain

/-- **An object is in a value**, at any depth: the value itself, in an item or in a member. -/
inductive Json.HasObject : Json → Members → Prop
  | self (members : Members) : HasObject (.obj members) members
  | item {items : List Json} {j : Json} {members : Members} (hj : j ∈ items)
      (h : HasObject j members) : HasObject (.arr items) members
  | member {outer : Members} {m : String × Json} {members : Members} (hm : m ∈ outer)
      (h : HasObject m.2 members) : HasObject (.obj outer) members

namespace Schema

variable {members : Members} {j : Json}

/-- **A value is settled** when no object in it looks like a marked schema. -/
def Settled (j : Json) : Prop := ∀ members, j.HasObject members → ¬LooksMarked members

/-! ### Settled parts -/

theorem settled_arr_iff {items : List Json} : Settled (.arr items) ↔ ∀ j ∈ items, Settled j := by
  constructor
  · exact fun h j hj members hmembers => h members (.item hj hmembers)
  · intro h members hmembers
    cases hmembers with
    | item hj hinner => exact h _ hj members hinner

theorem settled_obj_iff :
    Settled (.obj members) ↔ ¬LooksMarked members ∧ ∀ m ∈ members, Settled m.2 := by
  constructor
  · exact fun h => ⟨h members (.self members), fun m hm inner hinner => h inner (.member hm hinner)⟩
  · rintro ⟨hself, hmembers⟩ inner hinner
    cases hinner with
    | self => exact hself
    | member hm h => exact hmembers _ hm inner h

/-- What has no parts is settled. -/
theorem settled_of_inner_eq_nil (h : j.inner = []) : Settled j := by
  intro members hobject
  cases hobject with
  | self =>
    obtain rfl : members = [] := List.map_eq_nil_iff.mp h
    rintro ⟨hnullable, -⟩
    cases hnullable
  | item hj =>
    obtain rfl := (List.append_eq_nil_iff.mp h).1
    cases hj
  | member hm =>
    obtain rfl := List.map_eq_nil_iff.mp (List.append_eq_nil_iff.mp h).2
    cases hm

/-! ### Spellings are settled -/

/-- Once its mark has been spelled out, an object does not look marked. -/
theorem not_looksMarked_widen (members : Members) : ¬LooksMarked (widen members) := by
  rcases htypes : widenedType? members with _ | types
  · rw [widen, htypes]
    exact widenedType?_eq_none_iff.mp htypes
  · obtain ⟨-, ts, rfl, -⟩ := exists_of_widenedType?_eq_some htypes
    rw [widen, htypes]
    rintro ⟨-, ⟨t, ht⟩ | ⟨ts', hts', hnull⟩⟩
    · rw [Entries.get?_insert_self] at ht
      cases ht
    · rw [Entries.get?_insert_self] at hts'
      cases hts'
      exact hnull (List.mem_append_right _ (List.mem_singleton_self _))

/-- The type that is set consists of what was there and of `null`. -/
theorem settled_of_mem_widen (h : ∀ m ∈ members, Settled m.2) :
    ∀ m ∈ widen members, Settled m.2 := by
  intro m hm
  rcases htypes : widenedType? members with _ | types
  · rw [widen, htypes] at hm
    exact h m hm
  · rw [widen, htypes] at hm
    rcases Entries.eq_or_mem_of_mem_insert hm with rfl | hold
    · have htext : ∀ text, Settled (.str text) := fun text =>
        settled_of_inner_eq_nil rfl
      obtain ⟨-, ts, rfl, hts⟩ := exists_of_widenedType?_eq_some htypes
      rw [settled_arr_iff, List.forall_mem_append, List.forall_mem_singleton]
      refine ⟨?_, htext "null"⟩
      rcases hts with hts | ⟨t, -, rfl⟩
      · exact settled_arr_iff.mp (h _ (Entries.mem_of_get?_eq_some hts))
      · exact List.forall_mem_singleton.mpr (htext t)
    · exact h m hold

/-- **What has been spelled out is settled.** -/
theorem settled_spellNullable (j : Json) : Settled (spellNullable j) := by
  induction j using Json.parts_induction with
  | arr items ih =>
    rw [spellNullable, spellNullableItems_eq_map, settled_arr_iff]
    exact List.forall_mem_map.mpr ih
  | obj members ih =>
    rw [spellNullable_obj_eq, settled_obj_iff]
    exact ⟨not_looksMarked_widen _, settled_of_mem_widen (List.forall_mem_map.mpr ih)⟩
  | null | bool | num | str => exact settled_of_inner_eq_nil rfl

/-- A settled value is its own spelling. -/
theorem Settled.spellNullable_eq (h : Settled j) : spellNullable j = j := by
  induction j using Json.parts_induction with
  | arr items ih =>
    rw [settled_arr_iff] at h
    rw [spellNullable, spellNullableItems_eq_map]
    exact congrArg Json.arr ((List.map_congr_left fun j hj => ih j hj (h j hj)).trans
      (List.map_id items))
  | obj members ih =>
    obtain ⟨hself, hmembers⟩ := settled_obj_iff.mp h
    have hmap : (members.map fun m => (m.1, spellNullable m.2)) = members :=
      (List.map_congr_left fun m hm => congrArg (Prod.mk m.1) (ih m hm (hmembers m hm))).trans
        (List.map_id members)
    rw [spellNullable_obj_eq, spelled, hmap, widen_eq_self_of_not_looksMarked hself]
  | null | bool | num | str => simp [spellNullable]

/-- **A value is its own spelling exactly when it is settled.** -/
theorem spellNullable_eq_self_iff : spellNullable j = j ↔ Settled j :=
  ⟨fun h => h ▸ settled_spellNullable j, Settled.spellNullable_eq⟩

/-- **The spelling of a spelling is the same again.** -/
theorem spellNullable_spellNullable (j : Json) :
    spellNullable (spellNullable j) = spellNullable j :=
  (settled_spellNullable j).spellNullable_eq

end Schema

end CallChain
