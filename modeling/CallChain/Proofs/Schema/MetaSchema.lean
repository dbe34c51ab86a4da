import CallChain.Proofs.Schema.Content
import Mathlib.Data.List.Chain
import Mathlib.Data.List.Nodup

/-!
# What it takes to be a schema

The schema of schemas refers to itself, and its references are followed only so many times in a row.
The bound grows with the value, so a part of a schema is judged with another bound than the schema
is. That makes no difference: between two steps into the value no more than two references are met,
and all bounds that are large enough give the same verdict (`CallChain.Schema.agree_of_deep`).

So being a schema (`CallChain.Schema.IsSchema`) can be told without any bound: a truth value is a
schema, and an object is one when the value of each keyword has the form of that keyword
(`CallChain.Schema.isSchema_obj_iff`). The forms that are met here are those of a schema, of schemas
by name, of `items`, of the name of a type, and of a list of names.

* `CallChain.Schema.metaParts`: the parts of the schema of schemas that it refers to.
* `CallChain.Schema.metaForms`: what it asks of the value of each keyword.
-/

set_option autoImplicit false

namespace CallChain

namespace Schema

variable {v : Json}

/-! ### The parts of the schema of schemas -/

/-- A list of schemas. -/
def schemaArray : Json :=
  .obj [("items", anySchema), ("minItems", .nat 1), ("type", .str "array")]

/-- The name of a type. -/
def simpleTypes : Json := .obj [("enum", .arr (typeNames.map .str))]

/-- A list of distinct texts. -/
def stringArray : Json :=
  .obj [("default", .arr []), ("items", single "type" "string"), ("type", .str "array"),
    ("uniqueItems", .bool true)]

/-- **What the schema of schemas refers to**: itself, and its named parts. -/
def metaParts : Members := [
  ("#", metaSchema),
  ("#/definitions/nonNegativeInteger", .obj [("minimum", .nat 0), ("type", .str "integer")]),
  ("#/definitions/nonNegativeIntegerDefault0", .obj [("allOf", .arr [
    refTo "#/definitions/nonNegativeInteger", .obj [("default", .nat 0)]])]),
  ("#/definitions/schemaArray", schemaArray),
  ("#/definitions/simpleTypes", simpleTypes),
  ("#/definitions/stringArray", stringArray)]

/-- The names by which it refers to them. -/
def metaNames : List String := metaParts.names

theorem referent?_of_mem {m : String × Json} (h : m ∈ metaParts) :
    referent? metaSchema m.1 = some m.2 := by
  simp only [metaParts, List.mem_cons, List.not_mem_nil, or_false] at h
  rcases h with rfl | rfl | rfl | rfl | rfl | rfl
  all_goals with_unfolding_all rfl

/-- **The parts refer to parts.** A reference that is met in one leads to a part in which no further
reference is met. -/
theorem references_of_mem_metaParts : ∀ m ∈ metaParts, m.2.references ⊆ metaNames ∧
    ∀ next ∈ m.2.metReferences, ∃ last ∈ metaParts, last.1 = next ∧ last.2.metReferences = [] := by
  decide +kernel

/-- **What the schema of schemas refers to is there.** -/
theorem exists_referent {name : String} (h : name ∈ metaNames) :
    ∃ target, referent? metaSchema name = some target ∧ target.references ⊆ metaNames ∧
      ∀ next ∈ target.metReferences, ∃ last, referent? metaSchema next = some last ∧
        last.references ⊆ metaNames ∧ last.metReferences = [] := by
  obtain ⟨m, hm, rfl⟩ := List.mem_map.mp h
  obtain ⟨hsub, hmet⟩ := references_of_mem_metaParts m hm
  refine ⟨m.2, referent?_of_mem hm, hsub, fun next hnext => ?_⟩
  obtain ⟨last, hlast, rfl, hnone⟩ := hmet next hnext
  exact ⟨last.2, referent?_of_mem hlast, (references_of_mem_metaParts last hlast).1, hnone⟩

/-! ### Bounds that are large enough -/

/-- **Following references more often does not change the verdict**, once they are followed twice
for each level of the value. -/
theorem agree_reference_of_deep {n d d' : ℕ} {name : String} (hname : name ∈ metaNames)
    (hv : v.size ≤ n) (hd : 2 * n + 2 ≤ d) (hd' : 2 * n + 2 ≤ d') :
    Agree (reference metaSchema d name) (reference metaSchema d' name) v := by
  induction n generalizing d d' name v with
  | zero => exact absurd (Json.size_pos v) (by omega)
  | succ n ih =>
    -- Two references may be met at the value itself; whatever is met after them is smaller.
    obtain ⟨d, rfl⟩ : ∃ e, d = e + 1 + 1 := ⟨d - 2, by omega⟩
    obtain ⟨d', rfl⟩ : ∃ e, d' = e + 1 + 1 := ⟨d' - 2, by omega⟩
    obtain ⟨target, htarget, hsub, hnext⟩ := exists_referent hname
    rw [reference_of_referent? htarget, reference_of_referent? htarget]
    refine agree_of (fun next hmem w hw => ih (hsub hmem) (by omega) (by omega) (by omega))
      (fun next hmet => ?_)
    obtain ⟨last, hlast, hsub', hnone⟩ := hnext next hmet
    rw [reference_of_referent? hlast, reference_of_referent? hlast]
    refine agree_of (fun name' hmem' w hw => ih (hsub' hmem') (by omega) (by omega) (by omega)) ?_
    simp [hnone]

/-- The same for everything that refers to parts of the schema of schemas only. -/
theorem agree_of_deep {form : Json} {d d' : ℕ} (hform : form.references ⊆ metaNames)
    (hd : 2 * v.size + 2 ≤ d) (hd' : 2 * v.size + 2 ≤ d') :
    Agree (Part.of (reference metaSchema d) form).check
      (Part.of (reference metaSchema d') form).check v :=
  agree_of (fun _ hmem _ hw => agree_reference_of_deep (hform hmem) hw.le hd hd')
    (fun _ hmet => agree_reference_of_deep (hform (Json.metReferences_subset form hmet)) le_rfl hd
      hd')

/-! ### Forms -/

/-- **A value has a form**, a part of the schema of schemas, when that does not object to it. -/
def Fits (form v : Json) : Prop :=
  (Part.of (reference metaSchema (referenceDepth metaSchema v)) form).check v [] = []

/-- **A value is a schema** when the schema of schemas does not object to it. -/
def IsSchema (v : Json) : Prop := Fits metaSchema v

theorem objection?_eq_none_iff : objection? v = none ↔ IsSchema v := by
  rw [objection?, Option.map_eq_none_iff, List.head?_eq_none_iff]
  exact Iff.rfl

theorem lt_referenceDepth {w : Json} (h : w.size ≤ v.size) :
    2 * w.size + 2 < referenceDepth metaSchema v := by
  -- That the schema of schemas has a part is all that the bound needs to be known of it.
  have hsize : 2 ≤ metaSchema.size := by
    have hpart : (Json.str "http://json-schema.org/draft-07/schema#").size < metaSchema.size :=
      Json.size_lt_of_mem_members (m := ("$id", _)) List.mem_cons_self
    exact Nat.succ_le_of_lt (lt_of_le_of_lt (Json.size_pos _) hpart)
  have hle : 3 * (v.size + 1) ≤ referenceDepth metaSchema v :=
    Nat.mul_le_mul_right _ (Nat.succ_le_succ hsize)
  omega

/-- Whether a value has a form can be told with every bound that is large enough, at every place. -/
theorem fits_iff {form : Json} {d : ℕ} (hform : form.references ⊆ metaNames)
    (hd : 2 * v.size + 2 ≤ d) (place : Pointer) :
    Fits form v ↔ (Part.of (reference metaSchema d) form).check v place = [] :=
  agree_of_deep hform (lt_referenceDepth le_rfl).le hd [] place

/-- A reference asks for the form that it refers to. -/
theorem fits_refTo_iff {m : String × Json} (hm : m ∈ metaParts) :
    Fits (refTo m.1) v ↔ Fits m.2 v := by
  have hown : Json.ownReference? [("$ref", .str m.1)] = some m.1 := rfl
  have hdeep := lt_referenceDepth (v := v) le_rfl
  obtain ⟨d, hd⟩ : ∃ d, referenceDepth metaSchema v = d + 1 :=
    ⟨referenceDepth metaSchema v - 1, by omega⟩
  rw [fits_iff (d := d) (references_of_mem_metaParts m hm).1 (by omega) [], Fits, refTo, single,
    check_of_obj, hown, hd, ← reference_of_referent? (referent?_of_mem hm)]

theorem fits_anySchema_iff : Fits anySchema v ↔ IsSchema v :=
  fits_refTo_iff (m := ("#", metaSchema)) List.mem_cons_self

/-- One of several forms. -/
theorem fits_anyOf_iff {forms : List Json} {more : Members}
    (hmore : ∀ m ∈ more, m.1 = "default") :
    Fits (.obj (("anyOf", .arr forms) :: more)) v ↔ ∃ form ∈ forms, Fits form v := by
  have hown : Entries.get? (("anyOf", .arr forms) :: more) "$ref" = none := by
    rcases hget : Entries.get? more "$ref" with _ | j
    · exact hget
    · have hdefault : "$ref" = "default" := hmore _ (Entries.mem_of_get?_eq_some hget)
      exact absurd hdefault (by decide)
  rw [Fits, check_of_obj_eq_nil_iff (ownReference?_eq_none hown), List.forall_mem_cons]
  refine Iff.trans (and_iff_left fun m hm => ?_) anyCheck_eq_nil_iff
  -- The other keyword, `default`, asks for nothing.
  rw [hmore m hm]
  rfl

/-! ### Schemas -/

/-- The forms that keywords ask of their values, by keyword. -/
def metaForms : Members := metaProperties.entries

theorem metaProperties_eq : metaProperties = .obj metaForms := rfl

/-- Two keywords of the schema of schemas ask for something. -/
theorem check_metaSchema_eq_nil_iff {refs : String → Check} {place : Pointer} :
    (Part.of refs metaSchema).check v place = [] ↔
      propertiesCheck (Part.ofMembers refs metaSchema.entries) (Part.of refs (.obj metaForms)) v
          place = [] ∧
        typeCheck (Part.of refs (.arr [.str "object", .str "boolean"])) v place = [] := by
  rw [metaSchema, check_of_obj_eq_nil_iff (by rfl), Json.entries, ← metaProperties_eq]
  simp only [List.forall_mem_cons]
  constructor
  · rintro ⟨-, -, -, -, hproperties, -, htype, -⟩
    exact ⟨hproperties, htype⟩
  · rintro ⟨hproperties, htype⟩
    exact ⟨rfl, rfl, rfl, rfl, hproperties, rfl, htype, List.forall_mem_nil _⟩

/-- **What the schema of schemas asks**: an object or a truth value, and of an object that the value
of each keyword has its form. -/
theorem isSchema_iff : IsSchema v ↔ (∃ b, v = .bool b) ∨ ∃ members, v = .obj members ∧
    ∀ m ∈ metaForms, ∀ w, Entries.get? members m.1 = some w → Fits m.2 w := by
  rw [IsSchema, Fits, check_metaSchema_eq_nil_iff, typeCheck_arr_eq_nil_iff]
  cases v with
  | bool b => simp [propertiesCheck, typeNames, hasType]
  | obj members =>
    rw [propertiesCheck_eq_nil_iff (by rfl)]
    have hforms : (∀ m ∈ metaForms, ∀ w, Entries.get? members m.1 = some w →
        (Part.of (reference metaSchema (referenceDepth metaSchema (.obj members))) m.2).check w
          ([] ++ [m.1]) = []) ↔
        ∀ m ∈ metaForms, ∀ w, Entries.get? members m.1 = some w → Fits m.2 w := by
      refine forall₂_congr fun m hm => forall₂_congr fun w hw => (fits_iff ?_ ?_ _).symm
      · intro name hname
        refine (references_of_mem_metaParts _ List.mem_cons_self).1
          (Json.mem_references_of_mem_members (m := ("properties", metaProperties)) (by simp) ?_)
        rw [metaProperties_eq]
        exact Json.mem_references_of_mem_members hm hname
      · exact (lt_referenceDepth
          (Json.size_lt_of_mem_members (Entries.mem_of_get?_eq_some hw)).le).le
    rw [hforms]
    simp [typeNames, hasType]
  | null | num | str | arr => simp [typeNames, hasType]

/-- A list is no schema. -/
theorem not_isSchema_arr {items : List Json} : ¬IsSchema (.arr items) := by
  rw [isSchema_iff]
  rintro (⟨b, hb⟩ | ⟨members, hmembers, -⟩)
  · cases hb
  · cases hmembers

/-- A text is no schema. -/
theorem not_isSchema_str {text : String} : ¬IsSchema (.str text) := by
  rw [isSchema_iff]
  rintro (⟨b, hb⟩ | ⟨members, hmembers, -⟩)
  · cases hb
  · cases hmembers

theorem ordered_metaForms : Entries.Ordered metaForms := by
  rw [Entries.Ordered, ← List.isChain_iff_pairwise]
  decide +kernel

/-- **An object is a schema** when the value of each keyword has the form of the keyword. -/
theorem isSchema_obj_iff {members : Members} : IsSchema (.obj members) ↔
    ∀ keyword form w, Entries.get? metaForms keyword = some form →
      Entries.get? members keyword = some w → Fits form w := by
  rw [isSchema_iff]
  constructor
  · rintro (⟨b, hb⟩ | ⟨members', hmembers, h⟩) keyword form w hform hw
    · cases hb
    · cases hmembers
      exact h _ (Entries.mem_of_get?_eq_some hform) w hw
  · intro h
    refine Or.inr ⟨members, rfl, fun m hm w hw => ?_⟩
    exact h m.1 m.2 w (Entries.get?_eq_some_of_mem ordered_metaForms hm) hw

/-- The same for an object in order, keyword by keyword. -/
theorem isSchema_obj_iff_of_ordered {members : Members} (hordered : Entries.Ordered members) :
    IsSchema (.obj members) ↔
      ∀ m ∈ members, ∀ form, Entries.get? metaForms m.1 = some form → Fits form m.2 := by
  rw [isSchema_obj_iff]
  constructor
  · exact fun h m hm form hform => h m.1 form m.2 hform (Entries.get?_eq_some_of_mem hordered hm)
  · exact fun h keyword form w hform hw => h _ (Entries.mem_of_get?_eq_some hw) form hform

/-! ### Forms of keywords -/

/-- What is asked of schemas by name. -/
theorem check_schemaMap_eq_nil_iff {refs : String → Check} {place : Pointer} :
    (Part.of refs schemaMap).check v place = [] ↔ ∃ members, v = .obj members ∧
      ∀ m ∈ members, (Part.of refs anySchema).check m.2 (place ++ [m.1]) = [] := by
  have hkeywords : (Part.of refs schemaMap).check v place = [] ↔
      extraPropertiesCheck (Part.ofMembers refs schemaMap.entries) (Part.of refs anySchema) v
          place = [] ∧
        typeCheck (Part.of refs (.str "object")) v place = [] := by
    rw [schemaMap, check_of_obj_eq_nil_iff (by rfl), Json.entries]
    simp only [List.forall_mem_cons]
    exact ⟨fun h => ⟨h.1, h.2.2.1⟩, fun h => ⟨h.1, rfl, h.2, List.forall_mem_nil _⟩⟩
  rw [hkeywords, typeCheck_eq_nil_iff, hasType_object_iff]
  constructor
  · rintro ⟨hextra, members, rfl⟩
    exact ⟨members, rfl, (extraPropertiesCheck_eq_nil_iff (by rfl) (by rfl)).mp hextra⟩
  · rintro ⟨members, rfl, hall⟩
    exact ⟨(extraPropertiesCheck_eq_nil_iff (by rfl) (by rfl)).mpr hall, members, rfl⟩

/-- **Schemas by name**: an object with a schema under each name. -/
theorem fits_schemaMap_iff :
    Fits schemaMap v ↔ ∃ members, v = .obj members ∧ ∀ m ∈ members, IsSchema m.2 := by
  have hnames : anySchema.references ⊆ metaNames := fun name hname =>
    List.mem_singleton.mp hname ▸ List.mem_cons_self
  rw [Fits, check_schemaMap_eq_nil_iff]
  refine exists_congr fun members => and_congr_right ?_
  rintro rfl
  refine forall₂_congr fun m hm => ?_
  rw [← fits_anySchema_iff]
  exact (fits_iff hnames (lt_referenceDepth (Json.size_lt_of_mem_members hm).le).le _).symm

/-- What is a list of schemas is an array. -/
theorem exists_of_fits_schemaArray (h : Fits schemaArray v) : ∃ items, v = .arr items := by
  have htype : hasType v "array" = true := hasType_of_check_eq_nil (by rfl) h (by rfl)
  cases v with
  | arr items => exact ⟨items, rfl⟩
  | null | bool | num | str | obj => cases htype

/-- **What `items` may be**: a schema, or a list of schemas. -/
theorem fits_items_iff {form : Json} (hform : Entries.get? metaForms "items" = some form) :
    Fits form v ↔ IsSchema v ∨ Fits schemaArray v := by
  obtain rfl : Json.obj [("anyOf", .arr [anySchema, refTo "#/definitions/schemaArray"]),
      ("default", .bool true)] = form :=
    Option.some.inj (Eq.trans (by with_unfolding_all rfl) hform)
  have hlist : Fits (refTo "#/definitions/schemaArray") v ↔ Fits schemaArray v :=
    fits_refTo_iff (m := ("#/definitions/schemaArray", schemaArray)) (by simp [metaParts])
  rw [fits_anyOf_iff (by simp), ← fits_anySchema_iff, ← hlist]
  simp only [List.exists_mem_cons_iff, List.not_mem_nil, false_and, exists_false, or_false]

theorem fits_simpleTypes_iff : Fits simpleTypes v ↔ ∃ t ∈ typeNames, v = .str t := by
  rw [Fits, simpleTypes, check_of_obj_eq_nil_iff (by rfl), List.forall_mem_singleton]
  have henum : ∀ refs, enumCheck (Part.of refs (.arr (typeNames.map .str))) v [] = [] ↔
      ∃ t ∈ typeNames, v = .str t := by
    intro refs
    simp only [enumCheck, json_of, ensure_eq_nil_iff, List.any_map, List.any_eq_true,
      Function.comp_apply, Json.str_equivalent_iff]
  exact henum _

/-- A list of distinct names of types. -/
def typeList : Json :=
  .obj [("items", refTo "#/definitions/simpleTypes"), ("minItems", .nat 1),
    ("type", .str "array"), ("uniqueItems", .bool true)]

/-- **What `type` may be**: the name of a type, or a list of distinct ones. -/
theorem fits_type_iff {form : Json} (hform : Entries.get? metaForms "type" = some form) :
    Fits form v ↔ (∃ t ∈ typeNames, v = .str t) ∨ Fits typeList v := by
  obtain rfl : Json.obj [("anyOf", .arr [refTo "#/definitions/simpleTypes", typeList])] = form :=
    Option.some.inj (Eq.trans (by with_unfolding_all rfl) hform)
  have hsimple : Fits (refTo "#/definitions/simpleTypes") v ↔ Fits simpleTypes v :=
    fits_refTo_iff (m := ("#/definitions/simpleTypes", simpleTypes)) (by simp [metaParts])
  rw [fits_anyOf_iff (by simp), ← fits_simpleTypes_iff, ← hsimple]
  simp only [List.exists_mem_cons_iff, List.not_mem_nil, false_and, exists_false, or_false]

/-- A list of names of types has the form when it is not empty and no name is listed twice. -/
theorem fits_typeList_iff {types : List String} (htypes : ∀ t ∈ types, t ∈ typeNames) :
    Fits typeList (.arr (types.map .str)) ↔ types ≠ [] ∧ types.Nodup := by
  have hdeep : ∀ t ∈ types, 2 * (Json.str t).size + 2 ≤
      referenceDepth metaSchema (.arr (types.map .str)) := fun t ht =>
    (lt_referenceDepth (Json.size_lt_of_mem_items (List.mem_map_of_mem ht)).le).le
  rw [Fits, typeList, check_of_obj_eq_nil_iff (by rfl)]
  generalize referenceDepth metaSchema _ = d at hdeep
  have hsimple : ∀ t ∈ types, ∀ place, (Part.of (reference metaSchema d)
      (refTo "#/definitions/simpleTypes")).check (.str t) place = [] := by
    intro t ht place
    have hfits : Fits simpleTypes (.str t) := fits_simpleTypes_iff.mpr ⟨t, htypes t ht, rfl⟩
    refine (fits_iff ?_ (hdeep t ht) place).mp ((fits_refTo_iff
      (m := ("#/definitions/simpleTypes", simpleTypes)) (by simp [metaParts])).mpr hfits)
    decide
  generalize reference metaSchema d = refs at hsimple
  have hitems : itemsCheck (Part.of refs (refTo "#/definitions/simpleTypes"))
      (.arr (types.map .str)) [] = [] := eachItem_eq_nil (List.forall_mem_map.mpr hsimple) 0
  have hleast : leastCheck .items (Part.of refs (.nat 1)) (.arr (types.map .str)) [] = [] ↔
      types ≠ [] := by
    simp only [leastCheck, measured?, json_of, Json.nat, ensure_eq_nil_iff, List.length_map,
      decide_eq_true_eq]
    exact Nat.succ_le_iff.trans List.length_pos_iff
  have htype : typeCheck (Part.of refs (.str "array")) (.arr (types.map .str)) [] = [] :=
    typeCheck_eq_nil_iff.mpr rfl
  have hunique : uniqueCheck (Part.of refs (.bool true)) (.arr (types.map .str)) [] = [] ↔
      types.Nodup := uniqueCheck_map_str_eq_nil_iff
  rw [← hleast, ← hunique]
  simp only [List.forall_mem_cons]
  exact ⟨fun h => ⟨h.2.1, h.2.2.2.1⟩, fun h => ⟨hitems, h.1, htype, h.2, List.forall_mem_nil _⟩⟩

/-- **The name of a type** may stand under `type`. -/
theorem fits_type_of_mem {t : String} (ht : t ∈ typeNames) {form : Json}
    (hform : Entries.get? metaForms "type" = some form) : Fits form (.str t) :=
  (fits_type_iff hform).mpr (Or.inl ⟨t, ht, rfl⟩)

/-- **Names have the form that `required` asks for** when none is listed twice. -/
theorem fits_stringArray_iff {texts : List String} :
    Fits (refTo "#/definitions/stringArray") (.arr (texts.map .str)) ↔ texts.Nodup := by
  have hlist : Fits (refTo "#/definitions/stringArray") (.arr (texts.map .str)) ↔
      Fits stringArray (.arr (texts.map .str)) :=
    fits_refTo_iff (m := ("#/definitions/stringArray", stringArray)) (by simp [metaParts])
  rw [hlist, Fits, stringArray, check_of_obj_eq_nil_iff (by rfl)]
  generalize reference metaSchema _ = refs
  have hitem : ∀ text place,
      (Part.of refs (single "type" "string")).check (.str text) place = [] := by
    intro text place
    have htype : typeCheck (Part.of refs (.str "string")) (.str text) place = [] :=
      typeCheck_eq_nil_iff.mpr rfl
    rw [single, check_of_obj_eq_nil_iff (by rfl), List.forall_mem_singleton]
    exact htype
  have hitems :
      itemsCheck (Part.of refs (single "type" "string")) (.arr (texts.map .str)) [] = [] :=
    eachItem_eq_nil (List.forall_mem_map.mpr fun text _ place => hitem text place) 0
  have htype : typeCheck (Part.of refs (.str "array")) (.arr (texts.map .str)) [] = [] :=
    typeCheck_eq_nil_iff.mpr rfl
  have hunique : uniqueCheck (Part.of refs (.bool true)) (.arr (texts.map .str)) [] = [] ↔
      texts.Nodup := uniqueCheck_map_str_eq_nil_iff
  rw [← hunique]
  simp only [List.forall_mem_cons]
  exact ⟨fun h => h.2.2.2.1, fun h => ⟨rfl, hitems, htype, h, List.forall_mem_nil _⟩⟩

/-! ### Schemas in a schema -/

variable {members : Members}

/-- **What is under `properties` in a schema** is an object with a schema under each name. -/
theorem exists_of_properties {j : Json} (h : IsSchema (.obj members))
    (hj : Entries.get? members "properties" = some j) :
    ∃ ps, j = .obj ps ∧ ∀ m ∈ ps, IsSchema m.2 :=
  fits_schemaMap_iff.mp (isSchema_obj_iff.mp h _ _ _ (by with_unfolding_all rfl) hj)

/-- **An object under `items` in a schema** is a schema. -/
theorem isSchema_items {inner : Members} (h : IsSchema (.obj members))
    (hinner : Entries.get? members "items" = some (.obj inner)) : IsSchema (.obj inner) := by
  obtain ⟨form, hform⟩ : ∃ form, Entries.get? metaForms "items" = some form :=
    ⟨_, by with_unfolding_all rfl⟩
  rcases (fits_items_iff hform).mp (isSchema_obj_iff.mp h _ _ _ hform hinner) with hschema | hlist
  · exact hschema
  · obtain ⟨items, hitems⟩ := exists_of_fits_schemaArray hlist
    cases hitems

end Schema

end CallChain
