import CallChain.Path.Access
import CallChain.Proofs.Schema.Spelling
import CallChain.Proofs.Result

/-!
# The schema of a part describes the part

A path leads through a schema to the schema of a part, and through a value to a part. When the value
conforms to the schema, the part conforms to the schema of the part
(`CallChain.FieldPath.conforms_of_resolve`), unless references change what the keywords on the way
mean.

One step is taken at a time (`CallChain.Schema.conforms_of_step`). The mark `nullable` is spelled
out of a schema once, at all depths, and spelled out of the schema of a part when that is judged on
its own. The two agree, because what is under `properties` lists schemas by name, and such a list is
left alone even where it has entries called `type` and `nullable`.
-/

set_option autoImplicit false

namespace CallChain

namespace Schema

variable {schema inner v w : Json}

theorem conforms_iff :
    conforms schema v = .ok () ↔
      IsSchema (spellNullable schema) ∧ violations (spellNullable schema) v = [] := by
  rw [conforms_eq_ok_iff, objection?_eq_none_iff]

/-! ### Where references are met -/

theorem ownReference?_eq_none_of_references {members : Members}
    (h : (Json.obj members).references = []) : Json.ownReference? members = none := by
  rw [Json.references, List.append_eq_nil_iff, Option.toList_eq_nil_iff] at h
  exact h.1

/-- What is in a schema without references has no references. -/
theorem references_eq_nil_of_get? {members : Members} {name : String} {j : Json}
    (h : (Json.obj members).references = []) (hj : Entries.get? members name = some j) :
    j.references = [] :=
  List.subset_nil.mp fun _ hmem =>
    h ▸ Json.mem_references_of_mem_members (Entries.mem_of_get?_eq_some hj) hmem

/-- **A schema without references asks for conformance** wherever it is read. -/
theorem check_spelled_eq_nil_iff {refs : String → Check} {place : Pointer}
    (hschema : IsSchema (spellNullable schema)) (hrefs : (spellNullable schema).references = []) :
    (Part.of refs (spellNullable schema)).check v place = [] ↔ conforms schema v = .ok () := by
  rw [conforms_iff, and_iff_right hschema]
  exact agree_of_references_eq_nil hrefs place []

/-! ### One step -/

/-- A member that the schema declares conforms to its schema. -/
theorem conforms_of_property {members ps vs : Members} {name : String}
    (hrefs : (Json.obj members).references = []) (h : conforms (.obj members) (.obj vs) = .ok ())
    (hps : Entries.get? members "properties" = some (.obj ps))
    (hinner : Entries.get? ps name = some inner) (hw : Entries.get? vs name = some w) :
    conforms inner w = .ok () := by
  rw [conforms_iff, spellNullable_obj_eq] at h
  obtain ⟨hschema, hnone⟩ := h
  have hspelled : (Json.obj (spelled members)).references = [] := by
    rw [← spellNullable_obj_eq]
    exact references_spellNullable_eq_nil hrefs
  have hps' : Entries.get? (spelled members) "properties" = some (.obj (spelled ps)) := by
    rw [get?_spelled (by decide), hps, Option.map_some, spellNullable_obj_eq]
  obtain ⟨_, heq, hall⟩ := exists_of_properties hschema hps'
  cases heq
  -- The list of schemas has not been touched, so the schema of the name is in it.
  have hget : Entries.get? (spelled ps) name = some (spellNullable inner) := by
    rw [spelled, widen_eq_self_of_widen hall, get?_map, hinner, Option.map_some]
  have hcheck := check_property_eq_nil (ownReference?_eq_none_of_references hspelled) hnone hps'
    hget hw
  have hinnerRefs := references_eq_nil_of_get? (references_eq_nil_of_get? hspelled hps') hget
  have hinnerSchema : IsSchema (spellNullable inner) :=
    hall (name, spellNullable inner) (Entries.mem_of_get?_eq_some hget)
  exact (check_spelled_eq_nil_iff hinnerSchema hinnerRefs).mp hcheck

/-- An item of an array conforms to the schema for all items. -/
theorem conforms_of_item {members inner : Members} {ws : List Json}
    (hrefs : (Json.obj members).references = []) (h : conforms (.obj members) (.arr ws) = .ok ())
    (hinner : Entries.get? members "items" = some (.obj inner)) (hw : w ∈ ws) :
    conforms (.obj inner) w = .ok () := by
  rw [conforms_iff, spellNullable_obj_eq] at h
  obtain ⟨hschema, hnone⟩ := h
  have hspelled : (Json.obj (spelled members)).references = [] := by
    rw [← spellNullable_obj_eq]
    exact references_spellNullable_eq_nil hrefs
  have hget : Entries.get? (spelled members) "items" = some (.obj (spelled inner)) := by
    rw [get?_spelled (by decide), hinner, Option.map_some, spellNullable_obj_eq]
  obtain ⟨place, hcheck⟩ := check_item_eq_nil (ownReference?_eq_none_of_references hspelled) hnone
    hget hw
  have hinnerSchema := isSchema_items hschema hget
  have hinnerRefs := references_eq_nil_of_get? hspelled hget
  rw [← spellNullable_obj_eq inner] at hinnerSchema hinnerRefs hcheck
  exact (check_spelled_eq_nil_iff hinnerSchema hinnerRefs).mp hcheck

/-- **One step**: where a step leads in a value that conforms conforms to where it leads in the
schema, and that has no references either. -/
theorem conforms_of_step {s : Segment} (hrefs : schema.references = [])
    (h : conforms schema v = .ok ()) (hinner : s.resolve schema = some inner)
    (hw : s.step v = some w) : inner.references = [] ∧ conforms inner w = .ok () := by
  cases s with
  | field name =>
    obtain ⟨props, hprops, hinner⟩ := Option.bind_eq_some_iff.mp hinner
    cases schema with
    | obj members =>
      cases props with
      | obj ps =>
        cases v with
        | obj vs =>
          exact ⟨references_eq_nil_of_get? (references_eq_nil_of_get? hrefs hprops) hinner,
            conforms_of_property hrefs h hprops hinner hw⟩
        | null | bool | num | str | arr => cases hw
      | null | bool | num | str | arr => cases hinner
    | null | bool | num | str | arr => cases hprops
  | index i =>
    obtain ⟨hitems, hobject⟩ := Option.filter_eq_some_iff.mp hinner
    cases schema with
    | obj members =>
      cases inner with
      | obj inner =>
        cases v with
        | arr ws =>
          exact ⟨references_eq_nil_of_get? hrefs hitems,
            conforms_of_item hrefs h hitems (List.mem_of_getElem? hw)⟩
        | null | bool | num | str | obj => cases hw
      | null | bool | num | str | arr => cases hobject
    | null | bool | num | str | arr => cases hitems

end Schema

namespace FieldPath

variable {schema inner v w : Json}

/-- The rest of a path, of which some steps are behind. -/
theorem conforms_of_resolveFrom (path : FieldPath) {steps : ℕ} {ahead : FieldPath}
    (hrefs : schema.references = []) (h : Schema.conforms schema v = .ok ())
    (hinner : resolveFrom path steps ahead schema = .ok inner)
    (hw : ahead.extract v = some w) : Schema.conforms inner w = .ok () := by
  -- Schema and value move on together; the references stay away all along.
  induction ahead generalizing steps schema v with
  | nil =>
    cases hinner
    cases hw
    exact h
  | cons s rest ih =>
    obtain ⟨part, hpart, hw⟩ := Option.bind_eq_some_iff.mp hw
    unfold resolveFrom at hinner
    rcases hnext : s.resolve schema with _ | next
    · rw [hnext] at hinner
      cases s <;> cases hinner
    · rw [hnext] at hinner
      obtain ⟨hnextRefs, hnextOk⟩ := Schema.conforms_of_step hrefs h hnext hpart
      exact ih hnextRefs hnextOk hinner hw

/-- **What a path extracts conforms to what it resolves to**, for a schema without references and a
value that conforms to it. -/
theorem conforms_of_resolve (path : FieldPath) (hrefs : schema.references = [])
    (h : Schema.conforms schema v = .ok ()) (hinner : path.resolve schema = .ok inner)
    (hw : path.extract v = some w) : Schema.conforms inner w = .ok () :=
  conforms_of_resolveFrom path hrefs h hinner hw

/-- A text or null. -/
def textOrNull : Json := .obj [("nullable", .bool true), ("type", .str "string")]

/-- A list of objects with members `type` and `nullable`. -/
def marks : Json :=
  .obj [("items", .obj [("properties", .obj [("nullable", .bool true), ("type", textOrNull)])]),
    ("type", .str "array")]

theorem conforms_of_resolve_marks :
    Schema.conforms marks (.arr [.obj [("type", .null)]]) = .ok () ∧
      resolve [.index 0, .field "type"] marks = .ok textOrNull ∧
      extract [.index 0, .field "type"] (.arr [.obj [("type", .null)]]) = some .null ∧
      Schema.conforms textOrNull .null = .ok () := by
  have h : Schema.conforms marks (.arr [.obj [("type", .null)]]) = .ok () :=
    Schema.isConforming_iff.mp (by decide +kernel)
  have hinner : resolve [.index 0, .field "type"] marks = .ok textOrNull := rfl
  have hw : extract [.index 0, .field "type"] (.arr [.obj [("type", .null)]]) = some .null := rfl
  exact ⟨h, hinner, hw, conforms_of_resolve _ (by decide +kernel) h hinner hw⟩

end FieldPath

end CallChain
