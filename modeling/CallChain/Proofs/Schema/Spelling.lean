import CallChain.Proofs.Schema.MetaSchema

/-!
# What spelling `nullable` out changes

To spell the mark out of an object is to spell it out of the members and then, perhaps, to set
`type`. So every other keyword keeps its place and has its own value spelled out
(`CallChain.Schema.get?_spelled`), and no reference comes in
(`CallChain.Schema.references_spellNullable_subset`).

An object that lists schemas by name is no schema itself, although it may well have the names `type`
and `nullable`. It is left alone: the mark only changes names of types and lists of them, and what
is under `type` here is a schema (`CallChain.Schema.widen_eq_self`).
-/

set_option autoImplicit false

namespace CallChain

namespace Schema

variable {members : Members} {name : String}

/-- The members of an object with `nullable` spelled out. -/
def spelled (members : Members) : Members := widen (members.map fun m => (m.1, spellNullable m.2))

theorem spellNullable_obj_eq (members : Members) :
    spellNullable (.obj members) = .obj (spelled members) := by
  rw [spellNullable, spellNullableMembers_eq_map, spelled]

/-! ### Keywords -/

theorem get?_widen_of_ne (h : name ≠ "type") :
    Entries.get? (widen members) name = Entries.get? members name := by
  rw [widen]
  split
  · exact Entries.get?_insert_of_ne h _ _
  · rfl

/-- **Every keyword but `type` has its own value spelled out.** -/
theorem get?_spelled (h : name ≠ "type") :
    Entries.get? (spelled members) name = (Entries.get? members name).map spellNullable := by
  rw [spelled, get?_widen_of_ne h, get?_map]

/-- **The type that is set** is a list that ends in `null`, in place of a list or a name. -/
theorem exists_of_widenedType?_eq_some {types : Json} (h : widenedType? members = some types) :
    isNullable (.obj members) = true ∧ ∃ ts, types = .arr (ts ++ [.str "null"]) ∧
      (Entries.get? members "type" = some (.arr ts) ∨
        ∃ t, Entries.get? members "type" = some (.str t) ∧ ts = [.str t]) := by
  rw [widenedType?] at h
  split at h
  · rename_i hnullable
    refine ⟨hnullable, ?_⟩
    split at h
    · rename_i t ht
      cases h
      exact ⟨_, rfl, Or.inr ⟨t, ht, rfl⟩⟩
    · rename_i ts hts
      split at h
      · cases h
      · cases h
        exact ⟨ts, rfl, Or.inl hts⟩
    · cases h
  · cases h

/-! ### What is marked -/

/-- **A schema with the mark** `nullable: true` added to it. -/
def marked (members : Members) : Members := Entries.insert "nullable" (.bool true) members

theorem isNullable_marked (members : Members) : isNullable (.obj (marked members)) = true := by
  rw [isNullable, Json.member?, marked, Entries.get?_insert_self]

theorem get?_marked (h : name ≠ "nullable") :
    Entries.get? (marked members) name = Entries.get? members name :=
  Entries.get?_insert_of_ne h _ _

theorem isNullable_obj_iff :
    isNullable (.obj members) = true ↔ Entries.get? members "nullable" = some (.bool true) := by
  rw [isNullable, Json.member?]
  rcases Entries.get? members "nullable" with _ | j
  · simp
  · cases j <;> simp

/-- **An object looks like a marked schema** when it says `nullable: true` and its `type` is a name,
or a list in which `null` is missing. -/
def LooksMarked (members : Members) : Prop :=
  isNullable (.obj members) = true ∧
    ((∃ t, Entries.get? members "type" = some (.str t)) ∨
      ∃ ts, Entries.get? members "type" = some (.arr ts) ∧ .str "null" ∉ ts)

/-- **Nothing is set** in an object that does not look marked. -/
theorem widenedType?_eq_none_iff : widenedType? members = none ↔ ¬LooksMarked members := by
  rw [widenedType?, LooksMarked]
  split
  · rename_i hnullable
    rw [hnullable, eq_self, true_and]
    split
    · rename_i t ht
      simp [ht]
    · rename_i ts hts
      have hany : (ts.any fun t => t.string? == some "null") = true ↔ .str "null" ∈ ts := by
        simp [Json.string?_eq_some_iff]
      simp [hts, hany]
    · rename_i hstr harr
      simpa using ⟨hstr, fun ts hts => absurd hts (harr ts)⟩
  · rename_i hnullable
    simp [hnullable]

theorem widen_eq_self_of_not_looksMarked (h : ¬LooksMarked members) : widen members = members := by
  rw [widen, widenedType?_eq_none_iff.mpr h]

/-! ### Schemas by name -/

/-- **Schemas by name are left alone.** -/
theorem widen_eq_self (h : ∀ j, Entries.get? members "type" = some j → IsSchema j) :
    widen members = members := by
  rw [widen]
  rcases htypes : widenedType? members with _ | types
  · rfl
  · obtain ⟨-, ts, -, hts | ⟨t, ht, -⟩⟩ := exists_of_widenedType?_eq_some htypes
    · exact absurd (h _ hts) not_isSchema_arr
    · exact absurd (h _ ht) not_isSchema_str

/-- The same can be told from the outcome: what has been set is no schema. -/
theorem widen_eq_self_of_widen (h : ∀ m ∈ widen members, IsSchema m.2) :
    widen members = members := by
  rw [widen] at h ⊢
  rcases htypes : widenedType? members with _ | types
  · rfl
  · rw [htypes] at h
    obtain ⟨-, ts, rfl, -⟩ := exists_of_widenedType?_eq_some htypes
    exact absurd (h _ (Entries.mem_of_get?_eq_some (Entries.get?_insert_self _ _ _)))
      not_isSchema_arr

/-! ### References -/

theorem ownReference?_widen (members : Members) :
    Json.ownReference? (widen members) = Json.ownReference? members := by
  rw [Json.ownReference?, Json.ownReference?, get?_widen_of_ne (by decide)]

/-- To set the type brings no reference in. -/
theorem references_widen_subset (members : Members) :
    (Json.obj (widen members)).references ⊆ (Json.obj members).references := by
  intro name h
  rw [Json.references, ownReference?_widen, List.mem_append, Json.mem_referencesOfMembers] at h
  rcases h with hown | ⟨m, hm, hname⟩
  · rw [Json.references]
    exact List.mem_append_left _ hown
  · rcases htypes : widenedType? members with _ | types
    · rw [widen, htypes] at hm
      exact Json.mem_references_of_mem_members hm hname
    · rw [widen, htypes] at hm
      rcases Entries.eq_or_mem_of_mem_insert hm with rfl | hold
      · obtain ⟨-, ts, rfl, hts⟩ := exists_of_widenedType?_eq_some htypes
        rw [Json.references, Json.mem_referencesOfItems] at hname
        obtain ⟨t, ht, hname⟩ := hname
        rcases List.mem_append.mp ht with ht | hnull
        · rcases hts with hts | ⟨t', -, rfl⟩
          · refine Json.mem_references_of_mem_members (Entries.mem_of_get?_eq_some hts) ?_
            rw [Json.references, Json.mem_referencesOfItems]
            exact ⟨t, ht, hname⟩
          · rw [List.mem_singleton.mp ht] at hname
            cases hname
        · rw [List.mem_singleton.mp hnull] at hname
          cases hname
      · exact Json.mem_references_of_mem_members hold hname

/-- A text is the spelling of itself only. -/
theorem string?_spellNullable (j : Json) : (spellNullable j).string? = j.string? := by
  cases j <;> simp [spellNullable, Json.string?]

/-- **To spell the mark out brings no reference in.** -/
theorem references_spellNullable_subset (j : Json) :
    (spellNullable j).references ⊆ j.references := by
  induction j using Json.parts_induction with
  | arr items ih =>
    intro name h
    rw [spellNullable, spellNullableItems_eq_map, Json.references, Json.mem_referencesOfItems] at h
    obtain ⟨_, hmap, hname⟩ := h
    obtain ⟨j, hj, rfl⟩ := List.mem_map.mp hmap
    rw [Json.references, Json.mem_referencesOfItems]
    exact ⟨j, hj, ih j hj hname⟩
  | obj members ih =>
    intro name h
    rw [spellNullable_obj_eq] at h
    have hmap := references_widen_subset _ h
    rw [Json.references, List.mem_append, Json.mem_referencesOfMembers] at hmap
    rcases hmap with hown | ⟨_, hmap, hname⟩
    · rw [Json.ownReference?, get?_map, Option.bind_map] at hown
      rw [Json.references, Json.ownReference?]
      refine List.mem_append_left _ ?_
      simpa only [Function.comp_def, string?_spellNullable] using hown
    · obtain ⟨m, hm, rfl⟩ := List.mem_map.mp hmap
      exact Json.mem_references_of_mem_members hm (ih m hm hname)
  | null | bool | num | str => exact List.Subset.refl _

theorem references_spellNullable_eq_nil {j : Json} (h : j.references = []) :
    (spellNullable j).references = [] :=
  List.subset_nil.mp (h ▸ references_spellNullable_subset j)

end Schema

end CallChain
