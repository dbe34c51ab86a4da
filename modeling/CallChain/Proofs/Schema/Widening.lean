import CallChain.Proofs.Schema.Marks

/-!
# What the mark admits

`nullable: true` on a schema with a `type` admits null and changes nothing else: for all other
values the schema asks what it asked before, and for null it asks what it would ask without its
`type` (`CallChain.Schema.conforms_marked_iff`). One type is an exception. To the name `null` the
mark adds `null` once more, and a list that names a type twice makes the schema none at all.

A keyword consults its neighbours, but never `type` or `nullable`
(`CallChain.Schema.keywordCheck_congr`). So what a schema asks falls into what its `type` asks and
what the other keywords ask (`CallChain.Schema.conforms_variant_iff`), and the second half is shared
by the schema, the marked schema and the schema without its `type`.

* `CallChain.Schema.Meets`: a value meets a keyword, and the keyword has its form.
* `CallChain.Schema.Variant`: a schema that differs in `type` and `nullable` at most.
* `CallChain.Schema.TypeNames`: the name of a type, or a list of distinct ones.
-/

set_option autoImplicit false

namespace CallChain

namespace Json

theorem references_obj_eq_nil_iff {members : Members} : (Json.obj members).references = [] ↔
    ownReference? members = none ∧ ∀ m ∈ members, m.2.references = [] := by
  rw [references, List.append_eq_nil_iff, Option.toList_eq_nil_iff]
  refine and_congr_right fun _ => ?_
  simp only [List.eq_nil_iff_forall_not_mem, mem_referencesOfMembers, not_exists, not_and]
  exact ⟨fun h m hm name => h name m hm, fun h name m hm => h m hm name⟩

end Json

namespace Schema

variable {members variant : Members} {j v : Json}

/-! ### Keywords and their neighbours -/

/-- The keywords that others consult. -/
def consultedKeywords : List String :=
  ["additionalProperties", "else", "items", "patternProperties", "properties", "then"]

/-- **A keyword asks the same** beside neighbours that agree where others consult them. -/
theorem keywordCheck_congr {siblings siblings' : List (String × Part)}
    (h : ∀ name ∈ consultedKeywords, part? siblings name = part? siblings' name)
    (keyword : String) (p : Part) :
    keywordCheck siblings keyword p = keywordCheck siblings' keyword p := by
  have htakes : extraTakesOver siblings = extraTakesOver siblings' := by
    rw [extraTakesOver, extraTakesOver, h "additionalProperties" (by decide)]
  have hextraItems : extraItemsCheck siblings p = extraItemsCheck siblings' p := by
    unfold extraItemsCheck
    rw [h "items" (by decide)]
  have hextra : extraPropertiesCheck siblings p = extraPropertiesCheck siblings' p := by
    unfold extraPropertiesCheck
    rw [h "properties" (by decide), h "patternProperties" (by decide)]
  have hif : ifCheck siblings p = ifCheck siblings' p := by
    funext v place
    rw [ifCheck, ifCheck, h _ (by split <;> decide)]
  have hpatterns : patternPropertiesCheck siblings p = patternPropertiesCheck siblings' p := by
    unfold patternPropertiesCheck
    rw [htakes]
  have hproperties : propertiesCheck siblings p = propertiesCheck siblings' p := by
    unfold propertiesCheck
    rw [htakes]
  unfold keywordCheck
  rw [hextraItems, hextra, hif, hpatterns, hproperties]

/-! ### Keyword by keyword -/

/-- **A value meets a keyword** with its value, among other members: the value of the keyword has
the form of the keyword, and the keyword is content. -/
def Meets (members : Members) (v : Json) (keyword : String) (j : Json) : Prop :=
  (∀ form, Entries.get? metaForms keyword = some form → Fits form j) ∧
    keywordCheck (Part.ofMembers (fun _ => accept) members) keyword
      (Part.of (fun _ => accept) j) v [] = []

theorem ordered_spelled (h : Entries.Ordered members) : Entries.Ordered (spelled members) := by
  have hmap := (Entries.ordered_map_iff spellNullable).mpr h
  rw [spelled, widen]
  split
  · exact Entries.ordered_insert hmap _ _
  · exact hmap

/-- **A value conforms to a schema without references** when it meets each of the keywords. -/
theorem conforms_iff_meets (hordered : Entries.Ordered members)
    (hrefs : (Json.obj members).references = []) :
    conforms (.obj members) v = .ok () ↔ ∀ keyword j,
      Entries.get? (spelled members) keyword = some j → Meets (spelled members) v keyword j := by
  have hspelled : (Json.obj (spelled members)).references = [] := by
    rw [← spellNullable_obj_eq]
    exact references_spellNullable_eq_nil hrefs
  have hown := (Json.references_obj_eq_nil_iff.mp hspelled).1
  have hcheck : violations (.obj (spelled members)) v = [] ↔
      (Part.of (fun _ => accept) (.obj (spelled members))).check v [] = [] :=
    agree_of_references_eq_nil hspelled [] []
  rw [conforms_iff, spellNullable_obj_eq, isSchema_obj_iff, hcheck, check_of_obj_eq_nil_iff hown,
    Entries.forall_mem_iff_forall_get? (ordered_spelled hordered) (P := fun keyword j =>
      keywordCheck _ keyword (Part.of (fun _ => accept) j) v [] = [])]
  constructor
  · exact fun ⟨hforms, hkeywords⟩ keyword j hj =>
      ⟨fun form hform => hforms keyword form j hform hj, hkeywords keyword j hj⟩
  · exact fun h => ⟨fun keyword form j hform hj => (h keyword j hj).1 form hform,
      fun keyword j hj => (h keyword j hj).2⟩

/-! ### Schemas that differ in `type` and `nullable` -/

/-- **A variant of a schema** has the same members but for `type` and `nullable`, in order and
without references. -/
structure Variant (members variant : Members) : Prop where
  ordered : Entries.Ordered variant
  noReferences : (Json.obj variant).references = []
  get?_eq : ∀ name, name ≠ "type" → name ≠ "nullable" →
    Entries.get? variant name = Entries.get? members name

/-- Variants ask the same under each keyword. -/
theorem Variant.meets_iff (h : Variant members variant) {keyword : String} :
    Meets (spelled variant) v keyword j ↔ Meets (spelled members) v keyword j := by
  have hconsulted : ∀ name ∈ consultedKeywords,
      part? (Part.ofMembers (fun _ => accept) (spelled variant)) name =
        part? (Part.ofMembers (fun _ => accept) (spelled members)) name := by
    intro name hname
    have hne : name ≠ "type" ∧ name ≠ "nullable" := by
      constructor <;> (rintro rfl; exact absurd hname (by decide))
    rw [part?_ofMembers, part?_ofMembers, get?_spelled hne.1, get?_spelled hne.1,
      h.get?_eq name hne.1 hne.2]
  rw [Meets, Meets, keywordCheck_congr hconsulted]

/-- The mark itself asks for nothing. -/
theorem meets_nullable (members : Members) (v j : Json) : Meets members v "nullable" j :=
  ⟨fun _ hform => absurd hform (by with_unfolding_all nofun), rfl⟩

/-- **What a schema asks** falls into what its `type` asks and what the other keywords ask. -/
theorem conforms_variant_iff (h : Variant members variant) :
    conforms (.obj variant) v = .ok () ↔
      (∀ types, Entries.get? (spelled variant) "type" = some types →
        Meets (spelled members) v "type" types) ∧
      ∀ keyword j, keyword ≠ "type" → keyword ≠ "nullable" →
        Entries.get? members keyword = some j →
        Meets (spelled members) v keyword (spellNullable j) := by
  rw [conforms_iff_meets h.ordered h.noReferences]
  simp only [h.meets_iff]
  constructor
  · refine fun hall => ⟨hall "type", fun keyword j htype hnullable hj => hall keyword _ ?_⟩
    rw [get?_spelled htype, h.get?_eq keyword htype hnullable, hj, Option.map_some]
  · rintro ⟨htypes, hothers⟩ keyword j hj
    by_cases htype : keyword = "type"
    · subst htype
      exact htypes j hj
    · by_cases hnullable : keyword = "nullable"
      · subst hnullable
        exact meets_nullable _ _ _
      · rw [get?_spelled htype, h.get?_eq keyword htype hnullable] at hj
        obtain ⟨k, hk, rfl⟩ := Option.map_eq_some_iff.mp hj
        exact hothers keyword k htype hnullable hk

/-! ### Types with the mark -/

/-- **The name of a type, or a list of distinct names** of types. -/
inductive TypeNames : Json → Prop
  | name {t : String} (h : t ∈ typeNames) : TypeNames (.str t)
  | list {ts : List String} (h : ∀ t ∈ ts, t ∈ typeNames) (hnodup : ts.Nodup) :
      TypeNames (.arr (ts.map .str))

theorem hasType_null_iff : hasType v "null" = true ↔ v = .null := by
  cases v <;> simp [hasType]

theorem meets_type_name_iff {t : String} (ht : t ∈ typeNames) :
    Meets members v "type" (.str t) ↔ hasType v t = true := by
  have hcheck : typeCheck (Part.of (fun _ => accept) (.str t)) v [] = [] ↔ hasType v t = true :=
    typeCheck_eq_nil_iff
  exact ⟨fun h => hcheck.mp h.2,
    fun h => ⟨fun _ hform => fits_type_of_mem ht hform, hcheck.mpr h⟩⟩

theorem meets_type_list_iff {ts : List String} (hts : ∀ t ∈ ts, t ∈ typeNames) :
    Meets members v "type" (.arr (ts.map .str)) ↔ ts.Nodup ∧ ∃ t ∈ ts, hasType v t = true := by
  obtain ⟨form, hform⟩ : ∃ form, Entries.get? metaForms "type" = some form :=
    ⟨_, by with_unfolding_all rfl⟩
  have hfits : Fits form (.arr (ts.map .str)) ↔ ts ≠ [] ∧ ts.Nodup := by
    rw [fits_type_iff hform, fits_typeList_iff hts]
    simp
  have hcheck : typeCheck (Part.of (fun _ => accept) (.arr (ts.map .str))) v [] = [] ↔
      ∃ t ∈ ts, hasType v t = true := by
    rw [typeCheck_arr_eq_nil_iff]
    simp only [List.mem_map, Json.str.injEq, exists_eq_right]
    exact ⟨fun ⟨t, _, ht⟩ => ⟨t, ht⟩, fun ⟨t, ht, hv⟩ => ⟨t, hts t ht, ht, hv⟩⟩
  constructor
  · exact fun h => ⟨(hfits.mp (h.1 form hform)).2, hcheck.mp h.2⟩
  · rintro ⟨hnodup, t, ht, hv⟩
    refine ⟨fun form' hform' => ?_, hcheck.mpr ⟨t, ht, hv⟩⟩
    rw [← Option.some.inj (hform.symm.trans hform')]
    exact hfits.mpr ⟨List.ne_nil_of_mem ht, hnodup⟩

/-- A name under `type` becomes a list of the name and `null`. -/
theorem get?_spelled_marked_name {t : String} (h : Entries.get? members "type" = some (.str t)) :
    Entries.get? (spelled (marked members)) "type" = some (.arr ([t, "null"].map .str)) := by
  have hget : Entries.get? ((marked members).map fun m => (m.1, spellNullable m.2)) "type" =
      some (.str t) := by
    rw [get?_map, get?_marked (by decide), h, Option.map_some, spellNullable_eq_str_iff.mpr rfl]
  rw [spelled, widen, widenedType?, isNullable_map_spellNullable, isNullable_marked, if_pos rfl,
    hget]
  exact Entries.get?_insert_self _ _ _

/-- A list under `type` gets `null` at its end, unless it has it already. -/
theorem get?_spelled_marked_list {ts : List String}
    (h : Entries.get? members "type" = some (.arr (ts.map .str))) :
    Entries.get? (spelled (marked members)) "type" =
      some (.arr ((if "null" ∈ ts then ts else ts ++ ["null"]).map .str)) := by
  have hget : Entries.get? ((marked members).map fun m => (m.1, spellNullable m.2)) "type" =
      some (.arr (ts.map .str)) := by
    rw [get?_map, get?_marked (by decide), h, Option.map_some, spellNullable_arr_map_str]
  have hnull : ((ts.map Json.str).any fun t => t.string? == some "null") = true ↔ "null" ∈ ts := by
    simp [Json.string?]
  rw [spelled, widen, widenedType?, isNullable_map_spellNullable, isNullable_marked, if_pos rfl,
    hget]
  by_cases hmem : "null" ∈ ts
  · simpa only [hnull, if_pos hmem] using hget
  · simp only [hnull, if_neg hmem, List.map_append]
    exact Entries.get?_insert_self _ _ _

/-- **What `type` asks with the mark**: null, or what it asked before. Only the name `null` is met
by nothing then. -/
theorem exists_marked_type (h : Entries.get? members "type" = some j) (hnames : TypeNames j) :
    ∃ types, Entries.get? (spelled (marked members)) "type" = some types ∧
      ∀ (others : Members) (v : Json), Meets others v "type" types ↔
        j ≠ .str "null" ∧ (v = .null ∨ Meets others v "type" j) := by
  have hnull : "null" ∈ typeNames := by decide
  cases hnames with
  | @name t ht =>
    refine ⟨_, get?_spelled_marked_name h, fun others v => ?_⟩
    rw [meets_type_list_iff (by simp [ht, hnull]), meets_type_name_iff ht]
    simp [hasType_null_iff, or_comm]
  | @list ts hts hnodup =>
    refine ⟨_, get?_spelled_marked_list h, fun others v => ?_⟩
    rw [and_iff_right (by simp)]
    split
    · rename_i hmem
      refine (or_iff_right_of_imp ?_).symm
      rintro rfl
      exact (meets_type_list_iff hts).mpr ⟨hnodup, "null", hmem, rfl⟩
    · rename_i hmem
      have hts' : ∀ t ∈ ts ++ ["null"], t ∈ typeNames :=
        List.forall_mem_append.mpr ⟨hts, List.forall_mem_singleton.mpr hnull⟩
      have hnodup' : (ts ++ ["null"]).Nodup :=
        List.concat_eq_append ▸ hnodup.concat hmem
      rw [meets_type_list_iff hts', meets_type_list_iff hts, and_iff_right hnodup',
        and_iff_right hnodup]
      simp [hasType_null_iff, or_and_right, exists_or, or_comm]

theorem TypeNames.spellNullable_eq (h : TypeNames j) : spellNullable j = j := by
  cases h with
  | name => rw [spellNullable_eq_str_iff]
  | list => exact spellNullable_arr_map_str _

/-! ### The schema with the mark and the schema without its type -/

/-- A schema without its `type`. -/
def untyped (members : Members) : Members := members.filter fun m => m.1 != "type"

theorem get?_untyped (members : Members) (name : String) :
    Entries.get? (untyped members) name =
      if name != "type" then Entries.get? members name else none :=
  Entries.get?_filter (fun name => name != "type") members name

theorem variant_marked (hordered : Entries.Ordered members)
    (hrefs : (Json.obj members).references = []) : Variant members (marked members) := by
  refine ⟨Entries.ordered_insert hordered _ _, ?_, fun name _ hname => get?_marked hname⟩
  rw [Json.references_obj_eq_nil_iff, Json.ownReference?] at hrefs ⊢
  rw [get?_marked (by decide)]
  refine ⟨hrefs.1, fun m hm => ?_⟩
  rcases Entries.eq_or_mem_of_mem_insert hm with rfl | hold
  · rfl
  · exact hrefs.2 m hold

theorem variant_untyped (hordered : Entries.Ordered members)
    (hrefs : (Json.obj members).references = []) : Variant members (untyped members) := by
  refine ⟨Entries.ordered_filter hordered _, ?_, fun name hname _ => ?_⟩
  · rw [Json.references_obj_eq_nil_iff, Json.ownReference?] at hrefs ⊢
    rw [get?_untyped, if_pos (by decide)]
    exact ⟨hrefs.1, fun m hm => hrefs.2 m (List.mem_of_mem_filter hm)⟩
  · rw [get?_untyped, if_pos (bne_iff_ne.mpr hname)]

/-- **The mark admits null and nothing else.** A schema without references whose `type` is the name
of a type, or a list of distinct ones, asks the same of every value but null when `nullable: true`
is added to it. Null conforms to it then exactly when it conforms without the `type`, except where
the `type` is the name `null`. -/
theorem conforms_marked_iff (hordered : Entries.Ordered members)
    (hunmarked : Entries.get? members "nullable" = none)
    (hrefs : (Json.obj members).references = []) (htype : Entries.get? members "type" = some j)
    (hnames : TypeNames j) :
    (∀ v, v ≠ .null →
      (conforms (.obj (marked members)) v = .ok () ↔ conforms (.obj members) v = .ok ())) ∧
    (conforms (.obj (marked members)) .null = .ok () ↔
      j ≠ .str "null" ∧ conforms (.obj (untyped members)) .null = .ok ()) := by
  obtain ⟨types, htypes, hmeets⟩ := exists_marked_type htype hnames
  have hself : Entries.get? (spelled members) "type" = some j := by
    have hlooks : ¬LooksMarked (members.map fun m => (m.1, spellNullable m.2)) := fun h =>
      absurd (isNullable_obj_iff.mp (looksMarked_map_spellNullable_iff.mp h).1) (by simp [hunmarked])
    rw [get?_spelled_type (widenedType?_eq_none_iff.mpr hlooks), htype, Option.map_some,
      hnames.spellNullable_eq]
  have hnone : Entries.get? (spelled (untyped members)) "type" = none := by
    have hget : Entries.get? (untyped members) "type" = none := by
      rw [get?_untyped]
      rfl
    rw [get?_spelled_type_of_not_textOrList (by simp [hget]), hget, Option.map_none]
  constructor
  · intro v hv
    have htypes' : Meets (spelled members) v "type" types ↔ Meets (spelled members) v "type" j := by
      rw [hmeets, or_iff_right hv, and_iff_right_iff_imp]
      rintro h rfl
      exact hv (hasType_null_iff.mp ((meets_type_name_iff (by decide)).mp h))
    have hsame : Variant members members := ⟨hordered, hrefs, fun _ _ _ => rfl⟩
    rw [conforms_variant_iff (variant_marked hordered hrefs), conforms_variant_iff hsame]
    simp only [htypes, hself, Option.some_inj, forall_eq', htypes']
  · rw [conforms_variant_iff (variant_marked hordered hrefs),
      conforms_variant_iff (variant_untyped hordered hrefs)]
    simp only [htypes, hnone, Option.some_inj, forall_eq', hmeets, true_or, and_true, reduceCtorEq,
      false_imp_iff, implies_true, true_and]

/-- Whole numbers, and texts of one or two characters. -/
def shortTexts : Members :=
  [("maxLength", .nat 2), ("minLength", .nat 1),
    ("type", .arr [.str "string", .str "integer"])]

theorem conforms_marked_iff_shortTexts :
    (Entries.get? shortTexts "nullable" = none ∧ (Json.obj shortTexts).references = [] ∧
      Entries.get? shortTexts "type" = some (.arr [.str "string", .str "integer"]) ∧
      TypeNames (.arr [.str "string", .str "integer"])) ∧
    (conforms (.obj (marked shortTexts)) (.str "abc") = .ok () ↔
      conforms (.obj shortTexts) (.str "abc") = .ok ()) ∧
    conforms (.obj (untyped shortTexts)) .null = .ok () ∧
    conforms (.obj (marked shortTexts)) .null = .ok () := by
  have hordered : Entries.Ordered shortTexts := by
    rw [Entries.Ordered, ← List.isChain_iff_pairwise]
    decide +kernel
  have hlisted : ∀ t ∈ ["string", "integer"], t ∈ typeNames := by decide
  have hnames : TypeNames (.arr [.str "string", .str "integer"]) := .list hlisted (by decide)
  have huntyped : conforms (.obj (untyped shortTexts)) .null = .ok () :=
    isConforming_iff.mp (by decide +kernel)
  obtain ⟨hothers, hnull⟩ := conforms_marked_iff hordered rfl (by rfl) rfl hnames
  exact ⟨⟨rfl, rfl, rfl, hnames⟩, hothers (.str "abc") (by simp), huntyped,
    hnull.mpr ⟨by simp, huntyped⟩⟩

/-- The schema of null, by its name. -/
def nullOnly : Members := [("type", .str "null")]

/-- **Null does not conform to the name `null` with the mark**, though it conforms to the name alone
and to the schema without its type. -/
theorem not_conforms_marked_nullOnly :
    conforms (.obj nullOnly) .null = .ok () ∧ conforms (.obj (untyped nullOnly)) .null = .ok () ∧
      ¬conforms (.obj (marked nullOnly)) .null = .ok () := by
  simp only [← isConforming_iff]
  decide +kernel

end Schema

end CallChain
