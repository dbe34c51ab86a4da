import CallChain.Proofs.Schema.Reading

/-!
# What a schema asks of the parts of a value

A schema that is content with an object is content with each member that it declares under
`properties`, whichever keyword reports for it (`CallChain.Schema.check_property_eq_nil`); a schema
that is content with an array and has one schema for all items is content with each item
(`CallChain.Schema.check_item_eq_nil`).

For the keywords `properties`, `additionalProperties` and `items` it is also said what they ask for
exactly, in schemas where nothing else interferes.
-/

set_option autoImplicit false

namespace CallChain

namespace Schema

variable {refs : String → Check} {members vs : Members} {v : Json} {place : Pointer}

/-- A schema without a reference of its own is content when all of its keywords are. -/
theorem check_of_obj_eq_nil_iff (hown : Json.ownReference? members = none) :
    (Part.of refs (.obj members)).check v place = [] ↔ ∀ m ∈ members,
      keywordCheck (Part.ofMembers refs members) m.1 (Part.of refs m.2) v place = [] := by
  rw [check_of_obj, hown]
  exact List.flatMap_eq_nil_iff

theorem ownReference?_eq_none (h : Entries.get? members "$ref" = none) :
    Json.ownReference? members = none := by
  rw [Json.ownReference?, h, Option.bind_none]

/-- The keyword of a member is content with what the schema is content with. -/
theorem keywordCheck_of_check_eq_nil (hown : Json.ownReference? members = none)
    (h : (Part.of refs (.obj members)).check v place = []) {keyword : String} {j : Json}
    (hj : Entries.get? members keyword = some j) :
    keywordCheck (Part.ofMembers refs members) keyword (Part.of refs j) v place = [] :=
  (check_of_obj_eq_nil_iff hown).mp h _ (Entries.mem_of_get?_eq_some hj)

theorem mem_filterMap_string? {js : List Json} {text : String} :
    text ∈ js.filterMap Json.string? ↔ .str text ∈ js := by
  simp only [List.mem_filterMap, Json.string?_eq_some_iff, exists_eq_right]

/-- **`type` with a list of names** asks for a value of one of the types that are listed. -/
theorem typeCheck_arr_eq_nil_iff {types : List Json} :
    typeCheck (Part.of refs (.arr types)) v place = [] ↔
      ∃ t ∈ typeNames, .str t ∈ types ∧ hasType v t = true := by
  simp only [typeCheck, json_of, ensure_eq_nil_iff, List.any_eq_true, List.mem_filter,
    List.contains_iff_mem, mem_filterMap_string?, and_assoc]

/-- What a schema with one type is content with is of this type. -/
theorem hasType_of_check_eq_nil (hown : Json.ownReference? members = none)
    (h : (Part.of refs (.obj members)).check v place = []) {t : String}
    (ht : Entries.get? members "type" = some (.str t)) : hasType v t = true := by
  have htype : typeCheck (Part.of refs (.str t)) v place = [] :=
    keywordCheck_of_check_eq_nil hown h ht
  exact typeCheck_eq_nil_iff.mp htype

/-- **`anyOf` asks for one of its parts to be content.** -/
theorem anyCheck_eq_nil_iff {parts : List Json} :
    anyCheck (Part.of refs (.arr parts)) v place = [] ↔
      ∃ j ∈ parts, (Part.of refs j).check v [] = [] := by
  rw [anyCheck, ensure_eq_nil_iff, items_of]
  simp [Json.elements, Part.passes]

/-! ### Members -/

/-- **`properties` asks for the members that it names**, if they are there. -/
theorem propertiesCheck_eq_nil_iff {ps : Members}
    (hextra : extraTakesOver (Part.ofMembers refs members) = false) :
    propertiesCheck (Part.ofMembers refs members) (Part.of refs (.obj ps)) (.obj vs) place = [] ↔
      ∀ m ∈ ps, ∀ w, Entries.get? vs m.1 = some w →
        (Part.of refs m.2).check w (place ++ [m.1]) = [] := by
  simp only [propertiesCheck, hextra, Bool.false_eq_true, if_false, members_of, Json.entries]
  simp only [ofMembers_eq_map, List.flatMap_eq_nil_iff, List.forall_mem_map]
  refine forall₂_congr fun m _ => ?_
  rcases Entries.get? vs m.1 with _ | w
  · simp
  · simp

/-- **`additionalProperties` asks for every member** where no other keyword knows any. -/
theorem extraPropertiesCheck_eq_nil_iff {inner : Members}
    (hproperties : Entries.get? members "properties" = none)
    (hpatterns : Entries.get? members "patternProperties" = none) :
    extraPropertiesCheck (Part.ofMembers refs members) (Part.of refs (.obj inner)) (.obj vs) place =
        [] ↔
      ∀ m ∈ vs, (Part.of refs (.obj inner)).check m.2 (place ++ [m.1]) = [] := by
  have hunknown : ∀ name w, (knownMember [] [] place name w).2 = false := by
    intro name w
    rfl
  unfold extraPropertiesCheck
  simp only [part?_ofMembers, hproperties, hpatterns, Option.map_none, Option.getD_none, json_of,
    hunknown, Bool.false_eq_true, if_false, List.flatMap_eq_nil_iff]

/-- What `additionalProperties` reports for a member that `properties` names is what the schema of
this name reports. -/
theorem check_of_knownMember_eq_nil {ps qs : Members} {name : String} {k w : Json}
    (hk : Entries.get? ps name = some k)
    (h : (knownMember (Part.ofMembers refs ps) (Part.ofMembers refs qs) place name w).1 = []) :
    (Part.of refs k).check w (place ++ [name]) = [] := by
  simp only [knownMember, part?_ofMembers, hk, Option.map_some, List.append_eq_nil_iff] at h
  exact h.1

/-- **A schema is content with the members that it declares** when it is content with the object. -/
theorem check_property_eq_nil {ps : Members} {name : String} {k w : Json}
    (hown : Json.ownReference? members = none)
    (h : (Part.of refs (.obj members)).check (.obj vs) place = [])
    (hps : Entries.get? members "properties" = some (.obj ps))
    (hk : Entries.get? ps name = some k) (hw : Entries.get? vs name = some w) :
    (Part.of refs k).check w (place ++ [name]) = [] := by
  have hmem := Entries.mem_of_get?_eq_some hw
  rcases htakes : extraTakesOver (Part.ofMembers refs members) with _ | _
  · have hproperties := keywordCheck_of_check_eq_nil hown h hps
    exact (propertiesCheck_eq_nil_iff htakes).mp hproperties (name, k)
      (Entries.mem_of_get?_eq_some hk) w hw
  · -- Another keyword reports in place of `properties`.
    rw [extraTakesOver, part?_ofMembers] at htakes
    rcases hextra : Entries.get? members "additionalProperties" with _ | extra
    · rw [hextra] at htakes
      cases htakes
    · have hcheck : extraPropertiesCheck (Part.ofMembers refs members) (Part.of refs extra)
          (.obj vs) place = [] := keywordCheck_of_check_eq_nil hown h hextra
      simp only [hextra, Option.map_some, json_of] at htakes
      unfold extraPropertiesCheck at hcheck
      simp only [members_part?_eq, json_of] at hcheck
      simp only [hps, part?_ofMembers, Option.map_some, Option.getD_some, Json.entries,
        Option.isNone_some, Bool.false_and, Bool.false_eq_true, if_false] at hcheck
      have hknown : (knownMember (Part.ofMembers refs ps) (Part.ofMembers refs
          (((Entries.get? members "patternProperties").map Json.entries).getD [])) place name w).1 =
            [] → (Part.of refs k).check w (place ++ [name]) = [] := check_of_knownMember_eq_nil hk
      refine hknown ?_
      split at hcheck
      · simp at htakes
      · rw [List.append_eq_nil_iff, List.flatMap_eq_nil_iff] at hcheck
        exact hcheck.1 _ hmem
      · rw [List.flatMap_eq_nil_iff] at hcheck
        have hvalue := hcheck _ hmem
        split at hvalue
        · exact hvalue
        · rename_i hunknown
          simp [knownMember, part?_ofMembers, hk] at hunknown

/-! ### Items -/

/-- Every item passes a check that passes the list. -/
theorem exists_place_of_eachItem {c : Check} {ws : List Json} {n : ℕ}
    (h : eachItem c place n ws = []) : ∀ w ∈ ws, ∃ place', c w place' = [] := by
  induction ws generalizing n with
  | nil => nofun
  | cons first rest ih =>
    rw [eachItem, List.append_eq_nil_iff] at h
    exact List.forall_mem_cons.mpr ⟨⟨_, h.1⟩, ih h.2⟩

/-- A check that passes every item, wherever it stands, passes the list. -/
theorem eachItem_eq_nil {c : Check} {ws : List Json} (h : ∀ w ∈ ws, ∀ place', c w place' = [])
    (n : ℕ) : eachItem c place n ws = [] := by
  induction ws generalizing n with
  | nil => rfl
  | cons first rest ih =>
    rw [eachItem, h first List.mem_cons_self, List.nil_append,
      ih fun w hw => h w (List.mem_cons_of_mem _ hw)]

/-- **Texts are distinct** when none is listed twice. -/
theorem allDistinct_map_str_iff {texts : List String} :
    allDistinct (texts.map .str) = true ↔ texts.Nodup := by
  induction texts with
  | nil => simp [allDistinct]
  | cons text rest ih =>
    have hequivalent : ∀ other : String,
        (Json.str text).equivalent (.str other) = (text == other) := by
      intro other
      rw [Json.equivalent]
    rw [List.map_cons, allDistinct, Bool.and_eq_true, ih, List.nodup_cons, List.any_map]
    simp [Function.comp_def, hequivalent, List.forall_mem_ne]

/-- `uniqueItems` asks of texts that none is listed twice. -/
theorem uniqueCheck_map_str_eq_nil_iff {texts : List String} :
    uniqueCheck (Part.of refs (.bool true)) (.arr (texts.map .str)) place = [] ↔ texts.Nodup := by
  simp only [uniqueCheck, json_of, ensure_eq_nil_iff, allDistinct_map_str_iff]

/-- **A schema for all items is content with each item** when the schema is content with the
array. -/
theorem check_item_eq_nil {ws : List Json} {inner : Members} {w : Json}
    (hown : Json.ownReference? members = none)
    (h : (Part.of refs (.obj members)).check (.arr ws) place = [])
    (hitems : Entries.get? members "items" = some (.obj inner)) (hw : w ∈ ws) :
    ∃ place', (Part.of refs (.obj inner)).check w place' = [] := by
  have hcheck : itemsCheck (Part.of refs (.obj inner)) (.arr ws) place = [] :=
    keywordCheck_of_check_eq_nil hown h hitems
  simp only [itemsCheck, json_of] at hcheck
  exact exists_place_of_eachItem hcheck w hw

end Schema

end CallChain
