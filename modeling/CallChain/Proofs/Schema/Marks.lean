import CallChain.Proofs.Schema.Compatibility
import CallChain.Proofs.Schema.Resolution
import CallChain.Proofs.Schema.Settled
import Mathlib.Data.List.Sort

/-!
# Two readings of `nullable`

The mark `nullable: true` is read twice: what a schema declares counts it as one more type, and the
check of a value has it spelled out first. The two readings are one
(`CallChain.Schema.spellNullable_laws`). To spell the mark out changes nothing that a schema
declares, and the types that stand under `type` afterwards are those that were declared.

Paths through schemas meet the spellings of what they met before. There is one thing that can get
between: the object under `properties` lists schemas by name and is no schema itself, but it may
look like one that is marked. At all positions of a value the spelling has the spelling of what was
there, except under a `type` that has been set.

* `CallChain.Schema.typesOf?`: what a list of types declares.
* `CallChain.FieldPath.propertyMaps`: the lists of schemas by name on the way of a path.
* `CallChain.Schema.StandsFor`: what stands at a position after spelling for what stood there.
-/

set_option autoImplicit false

namespace CallChain

namespace Schema

variable {members : Members} {schema j : Json}

/-! ### Sets of types -/

theorem pairwise_insertType (t : String) {types : List String} (h : types.Pairwise (· < ·)) :
    (insertType t types).Pairwise (· < ·) := by
  induction types with
  | nil => exact List.pairwise_singleton _ _
  | cons u rest ih =>
    rw [List.pairwise_cons] at h
    rw [insertType]
    split
    · exact List.pairwise_cons.mpr h
    · rename_i hne
      split
      · rename_i hlt
        refine List.pairwise_cons.mpr ⟨fun s hs => ?_, List.pairwise_cons.mpr h⟩
        rcases List.mem_cons.mp hs with rfl | hlater
        · exact hlt
        · exact hlt.trans (h.1 s hlater)
      · rename_i hnlt
        refine List.pairwise_cons.mpr ⟨fun s hs => ?_, ih h.2⟩
        rcases (mem_insertType rest).mp hs with rfl | hlater
        · exact lt_of_le_of_ne (not_lt.mp hnlt) (Ne.symm hne)
        · exact h.1 s hlater

theorem pairwise_typeSet (types : List String) : (typeSet types).Pairwise (· < ·) := by
  induction types with
  | nil => exact List.Pairwise.nil
  | cons t rest ih => exact pairwise_insertType t ih

/-- Lists of the same types give the same set. -/
theorem typeSet_congr {types types' : List String} (h : ∀ t, t ∈ types ↔ t ∈ types') :
    typeSet types = typeSet types' :=
  (pairwise_typeSet types).eq_of_mem_iff (pairwise_typeSet types') fun t => by
    rw [mem_typeSet, mem_typeSet, h]

/-- **What a list of types declares**: the set of them, and nothing when there is none. -/
def typesOf? (types : List String) : Option (List String) :=
  if types = [] then none else some (typeSet types)

theorem typesOf?_congr {types types' : List String} (h : ∀ t, t ∈ types ↔ t ∈ types') :
    typesOf? types = typesOf? types' := by
  have hnil : types = [] ↔ types' = [] := by
    simp only [List.eq_nil_iff_forall_not_mem, h]
  rw [typesOf?, typesOf?, typeSet_congr h, if_congr hnil rfl rfl]

theorem declaredTypes_eq (schema : Json) : declaredTypes schema =
    (namedTypes? schema).bind fun named =>
      typesOf? (if isNullable schema then "null" :: named else named) := by
  have hempty : ∀ types : List String, (typeSet types).isEmpty = true ↔ types = [] := by
    intro types
    simp only [List.isEmpty_iff, List.eq_nil_iff_forall_not_mem, mem_typeSet]
  rw [declaredTypes]
  rcases namedTypes? schema with _ | named
  · rfl
  · simp only [Option.bind_some, typesOf?, hempty]

/-- **A schema with a text or a list under `type`** declares the types that are listed there, and
`null` where it is marked. -/
theorem declaredTypes_of_textOrList (h : Entries.get? members "type" = some j)
    (hj : TextOrList j) {types : List String} (htypes : ∀ t,
      t ∈ types ↔ t ∈ listedTypes j ∨ (t = "null" ∧ isNullable (.obj members) = true)) :
    declaredTypes (.obj members) = typesOf? types := by
  have hnamed : namedTypes? (.obj members) = some (listedTypes j) := by
    rw [namedTypes?, Json.member?, h]
    rcases hj with ⟨text, rfl⟩ | ⟨items, rfl⟩
    · rfl
    · rfl
  rw [declaredTypes_eq, hnamed, Option.bind_some]
  refine typesOf?_congr fun t => ?_
  rw [htypes]
  rcases isNullable (.obj members) with _ | _
  · simp
  · simp [or_comm]

/-! ### What a spelling declares -/

theorem isNullable_spelled (members : Members) :
    isNullable (.obj (spelled members)) = isNullable (.obj members) := by
  rw [← isNullable_map_spellNullable members, isNullable, isNullable, Json.member?, Json.member?,
    get?_spelled (by decide), get?_map]

/-- A text or a list under `type` lists, once it has been spelled out, what the schema declares. -/
theorem declaredTypes_eq_typesOf?_spelled {j' : Json} (h : Entries.get? members "type" = some j)
    (hj : TextOrList j) (hj' : Entries.get? (spelled members) "type" = some j') :
    declaredTypes (.obj members) = typesOf? (listedTypes j') := by
  obtain ⟨_, hget, -, hlisted⟩ := exists_spelled_type_of_textOrList h hj
  obtain rfl := Option.some.inj (hget.symm.trans hj')
  exact declaredTypes_of_textOrList h hj hlisted

/-- Where neither a text nor a list is under `type`, the types are guessed. -/
theorem namedTypes?_of_not_textOrList
    (h : ∀ j, Entries.get? members "type" = some j → ¬TextOrList j) :
    namedTypes? (.obj members) =
      if (Entries.get? members "properties").isSome then some ["object"]
      else if (Entries.get? members "items").isSome then some ["array"] else none := by
  rw [namedTypes?]
  split
  · rename_i t ht
    exact absurd (Or.inl ⟨t, rfl⟩) (h _ ht)
  · rename_i ts hts
    exact absurd (Or.inr ⟨ts, rfl⟩) (h _ hts)
  · rfl

/-- **A spelling declares what the schema declares.** -/
theorem declaredTypes_spellNullable (schema : Json) :
    declaredTypes (spellNullable schema) = declaredTypes schema := by
  cases schema with
  | obj members =>
    rw [spellNullable_obj_eq]
    by_cases htype : ∃ j, Entries.get? members "type" = some j ∧ TextOrList j
    · obtain ⟨j, h, hj⟩ := htype
      obtain ⟨j', hget, hj', hlisted⟩ := exists_spelled_type_of_textOrList h hj
      rw [declaredTypes_of_textOrList h hj hlisted]
      refine declaredTypes_of_textOrList hget hj' fun t => ?_
      rw [isNullable_spelled, hlisted, or_assoc, or_self]
    · have h : ∀ j, Entries.get? members "type" = some j → ¬TextOrList j :=
        fun j hj htext => htype ⟨j, hj, htext⟩
      have hspelled : ∀ j, Entries.get? (spelled members) "type" = some j → ¬TextOrList j := by
        intro j' hj'
        rw [get?_spelled_type_of_not_textOrList h] at hj'
        obtain ⟨j, hj, rfl⟩ := Option.map_eq_some_iff.mp hj'
        exact fun htext => h j hj (textOrList_spellNullable_iff.mp htext)
      have hnamed : namedTypes? (.obj (spelled members)) = namedTypes? (.obj members) := by
        rw [namedTypes?_of_not_textOrList hspelled, namedTypes?_of_not_textOrList h]
        simp [get?_spelled]
      rw [declaredTypes_eq, declaredTypes_eq, isNullable_spelled, hnamed]
  | arr items =>
    rw [spellNullable]
    rfl
  | null | bool | num | str => simp [spellNullable]

/-! ### Members of a spelling -/

theorem spellNullable_eq_str_iff {text : String} :
    spellNullable j = .str text ↔ j = .str text := by
  rw [← Json.string?_eq_some_iff, string?_spellNullable, Json.string?_eq_some_iff]

/-- An object looks marked when it does with its members spelled out. -/
theorem looksMarked_map_spellNullable_iff :
    LooksMarked (members.map fun m => (m.1, spellNullable m.2)) ↔ LooksMarked members := by
  rw [LooksMarked, LooksMarked, isNullable_map_spellNullable, get?_map]
  refine and_congr_right fun _ => ?_
  rcases Entries.get? members "type" with _ | j
  · simp
  · cases j with
    | arr ts =>
      have hnull : .str "null" ∈ ts.map spellNullable ↔ .str "null" ∈ ts := by
        simp [List.mem_map, spellNullable_eq_str_iff]
      simp [spellNullable, spellNullableItems_eq_map, hnull]
    | null | bool | num | str | obj => simp [spellNullable]

theorem member?_spellNullable {name : String} (h : name ≠ "type") (j : Json) :
    (spellNullable j).member? name = (j.member? name).map spellNullable := by
  cases j with
  | obj members =>
    rw [spellNullable_obj_eq]
    exact get?_spelled h
  | arr items =>
    rw [spellNullable]
    rfl
  | null | bool | num | str => simp [spellNullable, Json.member?]

/-- **An object that does not look marked** only has the values of its members spelled out. -/
theorem spellNullable_of_not_looksMarked (h : ¬LooksMarked members) :
    spellNullable (.obj members) = .obj (members.map fun m => (m.1, spellNullable m.2)) := by
  rw [spellNullable_obj_eq, spelled, widen_eq_self_of_not_looksMarked
    fun hlooks => h (looksMarked_map_spellNullable_iff.mp hlooks)]

theorem member?_spellNullable_of_not_looksMarked (h : ¬LooksMarked j.entries) (name : String) :
    (spellNullable j).member? name = (j.member? name).map spellNullable := by
  cases j with
  | obj members =>
    rw [Json.entries] at h
    rw [spellNullable_of_not_looksMarked h]
    exact get?_map members spellNullable name
  | arr items =>
    rw [spellNullable]
    rfl
  | null | bool | num | str => simp [spellNullable, Json.member?]

end Schema

/-! ### Paths through schemas -/

namespace FieldPath

open Schema

variable {schema : Json}

/-- **The lists of schemas by name that a path goes through**: those under `properties` at each of
its names. -/
def propertyMaps : FieldPath → Json → List Members
  | [], _ => []
  | .index i :: rest, schema => ((Segment.index i).resolve schema).elim [] (propertyMaps rest)
  | .field name :: rest, schema =>
    ((schema.member? "properties").map Json.entries).toList ++
      ((Segment.field name).resolve schema).elim [] (propertyMaps rest)

theorem resolve_field_spellNullable (name : String)
    (h : ∀ props, schema.member? "properties" = some props → ¬LooksMarked props.entries) :
    (Segment.field name).resolve (spellNullable schema) =
      ((Segment.field name).resolve schema).map spellNullable := by
  rw [Segment.resolve, Segment.resolve, member?_spellNullable (by decide)]
  rcases hprops : schema.member? "properties" with _ | props
  · rfl
  · exact member?_spellNullable_of_not_looksMarked (h props hprops) name

theorem resolve_index_spellNullable (i : ℕ) (schema : Json) :
    (Segment.index i).resolve (spellNullable schema) =
      ((Segment.index i).resolve schema).map spellNullable := by
  have hobject : ∀ j : Json, (spellNullable j).isObject = j.isObject := by
    intro j
    cases j <;> simp [spellNullable, Json.isObject]
  rw [Segment.resolve, Segment.resolve, member?_spellNullable (by decide), Option.filter_map]
  exact congrArg (Option.map spellNullable) (congrArg (Option.filter · _) (funext hobject))

/-- **A path leads through a spelling** to the spelling of where it leads, or fails in the same way,
unless a list of schemas on its way looks marked. -/
theorem resolveFrom_spellNullable (path : FieldPath) {steps : ℕ} {ahead : FieldPath}
    (h : ∀ ps ∈ propertyMaps ahead schema, ¬LooksMarked ps) :
    resolveFrom path steps ahead (spellNullable schema) =
      (resolveFrom path steps ahead schema).map spellNullable := by
  induction ahead generalizing steps schema with
  | nil => rfl
  | cons s rest ih =>
    have hstep : s.resolve (spellNullable schema) = (s.resolve schema).map spellNullable ∧
        ∀ inner, s.resolve schema = some inner →
          ∀ ps ∈ propertyMaps rest inner, ¬LooksMarked ps := by
      cases s with
      | field name =>
        rw [propertyMaps, List.forall_mem_append] at h
        refine ⟨resolve_field_spellNullable name fun props hprops => ?_, fun inner hinner => ?_⟩
        · rw [hprops] at h
          exact h.1 _ (List.mem_singleton_self _)
        · rw [hinner] at h
          exact h.2
      | index i =>
        rw [propertyMaps] at h
        refine ⟨resolve_index_spellNullable i schema, fun inner hinner => ?_⟩
        rwa [hinner] at h
    unfold resolveFrom
    rw [hstep.1]
    rcases hinner : s.resolve schema with _ | inner
    · cases s <;> rfl
    · exact ih (hstep.2 inner hinner)

end FieldPath

namespace Schema

variable {members : Members} {j j' k : Json}

/-! ### Positions -/

/-- **What stands at a position of a spelling** for what stood there: the spelling of it, or a type
that has been set in its place. -/
inductive StandsFor : Json → Json → Prop
  | spelling (j : Json) : StandsFor j (spellNullable j)
  | name (t : String) : StandsFor (.str t) (.arr [.str t, .str "null"])
  | list (ts : List Json) : StandsFor (.arr ts) (.arr (ts.map spellNullable ++ [.str "null"]))

theorem exists_standsFor_type (h : Entries.get? members "type" = some k) :
    ∃ k', Entries.get? (spelled members) "type" = some k' ∧ StandsFor k k' := by
  rcases htypes : widenedType? (members.map fun m => (m.1, spellNullable m.2)) with _ | types
  · exact ⟨spellNullable k, by rw [get?_spelled_type htypes, h, Option.map_some], .spelling k⟩
  · have hset : Entries.get? (spelled members) "type" = some types := by
      rw [spelled, widen, htypes]
      exact Entries.get?_insert_self _ _ _
    obtain ⟨-, ts, rfl, hts⟩ := exists_of_widenedType?_eq_some htypes
    simp only [get?_map, h, Option.map_some, Option.some_inj] at hts
    refine ⟨_, hset, ?_⟩
    rcases hts with hts | ⟨t, ht, rfl⟩
    · cases k with
      | arr items =>
        rw [spellNullable, spellNullableItems_eq_map] at hts
        cases hts
        exact .list items
      | null | bool | num | str | obj => simp [spellNullable] at hts
    · rw [spellNullable_eq_str_iff] at ht
      subst ht
      exact .name t

/-- **One step** leads in a spelling to what stands for where it leads. -/
theorem StandsFor.exists_step (h : StandsFor j j') {s : Segment} (hk : s.step j = some k) :
    ∃ k', s.step j' = some k' ∧ StandsFor k k' := by
  cases h with
  | name t => cases s <;> cases hk
  | list ts =>
    cases s with
    | field name => cases hk
    | index i =>
      have hi : (ts.map spellNullable)[i]? = some (spellNullable k) := by
        rw [List.getElem?_map, show ts[i]? = some k from hk, Option.map_some]
      refine ⟨spellNullable k, ?_, .spelling k⟩
      rw [Segment.step, List.getElem?_append_left (List.getElem?_eq_some_iff.mp hi).1, hi]
  | spelling j =>
    cases s with
    | field name =>
      cases j with
      | obj members =>
        rw [spellNullable_obj_eq]
        by_cases hname : name = "type"
        · subst hname
          exact exists_standsFor_type hk
        · refine ⟨spellNullable k, ?_, .spelling k⟩
          rw [Segment.step, get?_spelled hname, show Entries.get? members name = some k from hk,
            Option.map_some]
      | null | bool | num | str | arr => cases hk
    | index i =>
      cases j with
      | arr items =>
        refine ⟨spellNullable k, ?_, .spelling k⟩
        rw [spellNullable, spellNullableItems_eq_map, Segment.step, List.getElem?_map,
          show items[i]? = some k from hk, Option.map_some]
      | null | bool | num | str | obj => cases hk

/-- **At every position** of a spelling there stands something for what stood there. -/
theorem StandsFor.exists_extract (h : StandsFor j j') {position : FieldPath}
    (hk : position.extract j = some k) : ∃ k', position.extract j' = some k' ∧ StandsFor k k' := by
  induction position generalizing j j' with
  | nil =>
    cases hk
    exact ⟨j', rfl, h⟩
  | cons s rest ih =>
    obtain ⟨next, hnext, hrest⟩ := Option.bind_eq_some_iff.mp hk
    obtain ⟨next', hnext', hstands⟩ := h.exists_step hnext
    obtain ⟨k', hk', hstands'⟩ := ih hstands hrest
    exact ⟨k', Option.bind_eq_some_iff.mpr ⟨next', hnext', hk'⟩, hstands'⟩

/-- Objects keep their positions. -/
theorem extract_spellNullable {position : FieldPath} {schema : Json}
    (h : position.extract schema = some (.obj members)) :
    position.extract (spellNullable schema) = some (.obj (spelled members)) := by
  obtain ⟨k', hk', hstands⟩ := (StandsFor.spelling schema).exists_extract h
  cases hstands with
  | spelling => rw [hk', spellNullable_obj_eq]

/-! ### The two readings -/

/-- **The mark means the same to both of its readers.** A spelling is its own spelling; where nothing
is marked there is nothing to spell out; a spelling declares what the schema declares; a path leads
through it to the spelling of where it leads, unless a list of schemas by name on its way looks
marked; and wherever a text or a list stands under `type`, what is listed there afterwards is what
was declared. -/
theorem spellNullable_laws (schema : Json) :
    spellNullable (spellNullable schema) = spellNullable schema ∧
    ((∀ members, schema.HasObject members → isNullable (.obj members) = false) →
      spellNullable schema = schema) ∧
    declaredTypes (spellNullable schema) = declaredTypes schema ∧
    (∀ path : FieldPath, (∀ ps ∈ path.propertyMaps schema, ¬LooksMarked ps) →
      path.resolve (spellNullable schema) = (path.resolve schema).map spellNullable) ∧
    ∀ (position : FieldPath) (members : Members) (j : Json),
      position.extract schema = some (.obj members) →
      Entries.get? members "type" = some j → TextOrList j →
      ∃ members' j', position.extract (spellNullable schema) = some (.obj members') ∧
        Entries.get? members' "type" = some j' ∧
        declaredTypes (.obj members) = typesOf? (listedTypes j') := by
  refine ⟨spellNullable_spellNullable schema, fun hunmarked => ?_,
    declaredTypes_spellNullable schema, fun path hpath => ?_, ?_⟩
  · refine spellNullable_eq_self_iff.mpr fun members hmembers hlooks => ?_
    exact absurd hlooks.1 (by rw [hunmarked members hmembers]; decide)
  · exact FieldPath.resolveFrom_spellNullable path hpath
  · intro position members j hposition hj htext
    obtain ⟨j', hj', -, -⟩ := exists_spelled_type_of_textOrList hj htext
    exact ⟨spelled members, j', extract_spellNullable hposition, hj',
      declaredTypes_eq_typesOf?_spelled hj htext hj'⟩

theorem spellNullable_laws_marks :
    (∀ members, numberOrNull.HasObject members → isNullable (.obj members) = false) ∧
    spellNullable numberOrNull = numberOrNull ∧
    (∀ ps ∈ FieldPath.propertyMaps [.index 0, .field "type"] FieldPath.marks, ¬LooksMarked ps) ∧
    FieldPath.resolve [.index 0, .field "type"] (spellNullable FieldPath.marks) =
      .ok (spellNullable FieldPath.textOrNull) ∧
    FieldPath.extract [.field "items", .field "properties", .field "type"] FieldPath.marks =
      some FieldPath.textOrNull ∧
    ∃ members' j', FieldPath.extract [.field "items", .field "properties", .field "type"]
        (spellNullable FieldPath.marks) = some (.obj members') ∧
      Entries.get? members' "type" = some j' ∧
      declaredTypes FieldPath.textOrNull = typesOf? (listedTypes j') := by
  have hunmarked : ∀ members, numberOrNull.HasObject members →
      isNullable (.obj members) = false := by
    intro members h
    cases h with
    | self => rfl
    | member hm h =>
      obtain rfl := List.mem_singleton.mp hm
      cases h with
      | item hj h =>
        simp only [List.mem_cons, List.not_mem_nil, or_false] at hj
        rcases hj with rfl | rfl <;> cases h
  have hmaps : ∀ ps ∈ FieldPath.propertyMaps [.index 0, .field "type"] FieldPath.marks,
      ¬LooksMarked ps := by
    intro ps hps
    obtain rfl := List.mem_singleton.mp hps
    rintro ⟨-, ⟨t, ht⟩ | ⟨ts, hts, -⟩⟩
    · cases ht
    · cases hts
  have hposition : FieldPath.extract [.field "items", .field "properties", .field "type"]
      FieldPath.marks = some FieldPath.textOrNull := rfl
  obtain ⟨-, hsettled, -, -, -⟩ := spellNullable_laws numberOrNull
  obtain ⟨-, -, -, hpath, hpositions⟩ := spellNullable_laws FieldPath.marks
  exact ⟨hunmarked, hsettled hunmarked, hmaps, hpath _ hmaps, hposition,
    hpositions _ _ _ hposition rfl (Or.inl ⟨_, rfl⟩)⟩

end Schema

end CallChain
