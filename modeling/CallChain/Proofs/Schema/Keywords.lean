import CallChain.Schema.Conformance
import CallChain.Proofs.Entries

/-!
# What the keywords of a schema ask for

A value conforms to a schema that is an object without references when every keyword of the object
is content with it (`CallChain.Schema.keywordCheck_eq_nil`). Two keywords are read here: `type` with
one name, and `required`.
-/

set_option autoImplicit false

namespace CallChain

theorem Json.string?_eq_some_iff {j : Json} {text : String} :
    j.string? = some text ↔ j = .str text := by
  cases j <;> simp [string?]

theorem Json.equivalent_str_iff {j : Json} {text : String} :
    j.equivalent (.str text) = true ↔ j = .str text := by
  cases j <;> simp [Json.equivalent]

theorem Json.str_equivalent_iff {j : Json} {text : String} :
    (Json.str text).equivalent j = true ↔ j = .str text := by
  cases j with
  | str other => rw [Json.equivalent, beq_iff_eq, Json.str.injEq, eq_comm]
  | null | bool | num | arr | obj => simp [Json.equivalent]

namespace Schema

/-! ### Conformance -/

theorem conforms_eq_ok_iff {schema value : Json} :
    conforms schema value = .ok () ↔ objection? (spellNullable schema) = none ∧
      violations (spellNullable schema) value = [] := by
  rw [conforms]
  split
  · rename_i hobjection
    simp [hobjection]
  · rename_i hobjection
    split
    · rename_i hnone
      simp [hobjection, hnone]
    · rename_i hfound
      simp only [reduceCtorEq, false_iff]
      exact fun h => hfound h.2

theorem isConforming_iff {schema value : Json} :
    isConforming schema value = true ↔ conforms schema value = .ok () := by
  rw [isConforming]
  split
  · rename_i hok
    simp [hok]
  · rename_i herror
    simp [herror]

/-! ### Parts -/

variable {refs : String → Check} {members : Members} {name : String} {value : Json}
  {place : Pointer}

theorem json_of (refs : String → Check) (j : Json) : (Part.of refs j).json = j := by
  rcases j with _ | ⟨_ | _⟩ | _ | _ | _ | _ <;> simp [Part.of, Part.json]

theorem ofMembers_eq_map (refs : String → Check) (members : Members) :
    Part.ofMembers refs members = members.map fun m => (m.1, Part.of refs m.2) := by
  induction members with
  | nil => rw [Part.ofMembers, List.map_nil]
  | cons m rest ih => rw [Part.ofMembers, ih, List.map_cons]

theorem part?_ofMembers (refs : String → Check) (members : Members) (name : String) :
    part? (Part.ofMembers refs members) name =
      (Entries.get? members name).map (Part.of refs) := by
  rw [ofMembers_eq_map, part?]
  induction members with
  | nil => rfl
  | cons m rest ih =>
    rw [List.map_cons, List.lookup_cons, Entries.get?]
    by_cases hk : m.1 = name
    · simp [hk]
    · rw [if_neg hk, ← ih, beq_false_of_ne (Ne.symm hk)]

/-- **Every keyword of a schema without references is content** with a value that the schema does
not object to. -/
theorem keywordCheck_eq_nil (hrefs : Entries.get? members "$ref" = none)
    (h : violations (.obj members) value = []) {keyword : String} {j : Json}
    (hmem : (keyword, j) ∈ members) :
    ∃ refs, keywordCheck (Part.ofMembers refs members) keyword (Part.of refs j) value [] = [] := by
  rw [violations, Part.of, Part.check, objectCheck, part?_ofMembers, hrefs] at h
  simp only [Option.map_none, List.flatMap_eq_nil_iff] at h
  refine ⟨_, h (keyword, Part.of _ j) ?_⟩
  rw [ofMembers_eq_map]
  exact List.mem_map_of_mem hmem

/-! ### Keywords -/

theorem ensure_eq_nil_iff {holds : Bool} {complaint : Complaint} :
    ensure holds place complaint = [] ↔ holds = true := by
  cases holds <;> simp [ensure]

/-- `type` with one name asks for a value of this type. -/
theorem typeCheck_eq_nil_iff {t : String} :
    typeCheck (Part.of refs (.str t)) value place = [] ↔ hasType value t = true := by
  rw [typeCheck, json_of]
  simp [ensure_eq_nil_iff]

/-- `required` asks for members of an object. -/
theorem requiredCheck_eq_nil_iff {names : List Json} :
    requiredCheck (Part.of refs (.arr names)) (.obj members) place = [] ↔
      ∀ name, Json.str name ∈ names → Entries.has members name = true := by
  simp only [requiredCheck, json_of, List.flatMap_eq_nil_iff, List.mem_filterMap,
    Json.string?_eq_some_iff, ensure_eq_nil_iff]
  constructor
  · exact fun h name hmem => h name ⟨_, hmem, rfl⟩
  · rintro h name ⟨_, hmem, rfl⟩
    exact h name hmem

theorem hasType_object_iff : hasType value "object" = true ↔ ∃ members, value = .obj members := by
  cases value <;> simp [hasType]

/-! ### Schemas without a mark -/

theorem spellNullableMembers_eq_map (members : Members) :
    spellNullableMembers members = members.map fun m => (m.1, spellNullable m.2) := by
  induction members with
  | nil => rw [spellNullableMembers, List.map_nil]
  | cons m rest ih => rw [spellNullableMembers, ih, List.map_cons]

theorem spellNullableItems_eq_map (items : List Json) :
    spellNullableItems items = items.map spellNullable := by
  induction items with
  | nil => rw [spellNullableItems, List.map_nil]
  | cons j rest ih => rw [spellNullableItems, ih, List.map_cons]

theorem get?_map (members : Members) (f : Json → Json) (name : String) :
    Entries.get? (members.map fun m => (m.1, f m.2)) name = (Entries.get? members name).map f := by
  induction members with
  | nil => rfl
  | cons m rest ih =>
    rw [List.map_cons, Entries.get?, Entries.get?, ih]
    split <;> rfl

/-- **Where there is no mark, nothing is spelled out** but what is in the members. -/
theorem spellNullable_obj (h : Entries.get? members "nullable" = none) :
    spellNullable (.obj members) = .obj (members.map fun m => (m.1, spellNullable m.2)) := by
  have hnullable : isNullable (.obj (members.map fun m => (m.1, spellNullable m.2))) = false := by
    rw [isNullable, Json.member?, get?_map, h]
    rfl
  rw [spellNullable, spellNullableMembers_eq_map, widen, widenedType?, hnullable]
  rfl

/-- Strings stay as they are. -/
theorem spellNullable_arr_map_str (names : List String) :
    spellNullable (.arr (names.map .str)) = .arr (names.map .str) := by
  rw [spellNullable, spellNullableItems_eq_map, List.map_map]
  refine congrArg Json.arr (List.map_congr_left fun name _ => ?_)
  simp [spellNullable]

end Schema

end CallChain
