import CallChain.Proofs.Schema.Marks

/-!
# Schemas of literals

`const` and `enum` hold values that are no schemas. The mark `nullable` is spelled out of them all
the same, so a literal is compared with its spelling. A literal that is settled is its own spelling
and meets itself; a literal in which some object looks like a marked schema is changed, and does not
meet itself any more (`CallChain.Schema.meetsConst_spellNullable_iff`). It makes no difference where
`properties` and `items` place the literals (`CallChain.Schema.conforms_literals_iff`).

Behind this is that values which are equal up to the sorts of their numbers look marked in the same
places (`CallChain.Schema.Settled.of_equivalent`): if a literal is equal to its spelling, it is
settled as the spelling is.

* `CallChain.Schema.OfLiterals`: schemas with nothing but literals and places for them.
* `CallChain.Schema.Nests`: values that have literals of the schema in these places.
-/

set_option autoImplicit false

namespace CallChain

/-! ### Equivalent values -/

namespace Json

theorem forall₂_of_equivalentItems {items items' : List Json}
    (h : equivalentItems items items' = true) :
    List.Forall₂ (fun j j' => j.equivalent j' = true) items items' := by
  induction items generalizing items' with
  | nil =>
    cases items' with
    | nil => exact .nil
    | cons => simp [equivalentItems] at h
  | cons j rest ih =>
    cases items' with
    | nil => simp [equivalentItems] at h
    | cons j' rest' =>
      rw [equivalentItems, Bool.and_eq_true] at h
      exact .cons h.1 (ih h.2)

theorem forall₂_of_equivalentMembers {members members' : Members}
    (h : equivalentMembers members members' = true) :
    List.Forall₂ (fun m m' => m.1 = m'.1 ∧ m.2.equivalent m'.2 = true) members members' := by
  induction members generalizing members' with
  | nil =>
    cases members' with
    | nil => exact .nil
    | cons => simp [equivalentMembers] at h
  | cons m rest ih =>
    cases members' with
    | nil => simp [equivalentMembers] at h
    | cons m' rest' =>
      rw [equivalentMembers, Bool.and_eq_true, Bool.and_eq_true, beq_iff_eq] at h
      exact .cons h.1 (ih h.2)

/-- What is under a name in the second of two equivalent objects is equivalent to what is there in
the first. -/
theorem exists_get?_of_equivalent {members members' : Members} {name : String} {j' : Json}
    (h : equivalentMembers members members' = true)
    (hj' : Entries.get? members' name = some j') :
    ∃ j, Entries.get? members name = some j ∧ j.equivalent j' = true := by
  have hforall := forall₂_of_equivalentMembers h
  clear h
  induction hforall with
  | nil => cases hj'
  | @cons m m' rest rest' hm _ ih =>
    rw [Entries.get?] at hj' ⊢
    rw [hm.1]
    split
    · rename_i hname
      rw [if_pos hname, Option.some_inj] at hj'
      exact ⟨m.2, rfl, hj' ▸ hm.2⟩
    · rename_i hname
      rw [if_neg hname] at hj'
      exact ih hj'

end Json

namespace Schema

variable {members : Members} {c j v : Json}

/-- Equivalent objects look marked alike. -/
theorem looksMarked_of_equivalent {members' : Members}
    (h : Json.equivalentMembers members members' = true) (hlooks : LooksMarked members') :
    LooksMarked members := by
  obtain ⟨hnullable, htype⟩ := hlooks
  obtain ⟨flag, hflag, hequivalent⟩ :=
    Json.exists_get?_of_equivalent h (isNullable_obj_iff.mp hnullable)
  obtain rfl : flag = .bool true := by
    cases flag <;> simp [Json.equivalent] at hequivalent
    rw [hequivalent]
  refine ⟨isNullable_obj_iff.mpr hflag, ?_⟩
  rcases htype with ⟨t, ht⟩ | ⟨ts', hts', hnull⟩
  · obtain ⟨k, hk, hkt⟩ := Json.exists_get?_of_equivalent h ht
    exact Or.inl ⟨t, Json.equivalent_str_iff.mp hkt ▸ hk⟩
  · obtain ⟨k, hk, hkts⟩ := Json.exists_get?_of_equivalent h hts'
    cases k with
    | arr ts =>
      rw [Json.equivalent] at hkts
      refine Or.inr ⟨ts, hk, fun hmem => hnull ?_⟩
      obtain ⟨t', ht', hequal⟩ :=
        exists_mem_of_forall₂ (Json.forall₂_of_equivalentItems hkts) hmem
      exact Json.str_equivalent_iff.mp hequal ▸ ht'
    | null | bool | num | str | obj => simp [Json.equivalent] at hkts

/-- **What is equivalent to a settled value is settled.** -/
theorem Settled.of_equivalent (h : Settled c) (heq : c.equivalent v = true) : Settled v := by
  induction c using Json.parts_induction generalizing v with
  | arr items ih =>
    cases v with
    | arr items' =>
      rw [Json.equivalent] at heq
      rw [settled_arr_iff] at h ⊢
      intro j' hj'
      obtain ⟨j, hj, hequal⟩ :=
        exists_mem_of_forall₂ (Json.forall₂_of_equivalentItems heq).flip hj'
      exact ih j hj (h j hj) hequal
    | null | bool | num | str | obj => simp [Json.equivalent] at heq
  | obj members ih =>
    cases v with
    | obj members' =>
      rw [Json.equivalent] at heq
      rw [settled_obj_iff] at h ⊢
      refine ⟨fun hlooks => h.1 (looksMarked_of_equivalent heq hlooks), fun m' hm' => ?_⟩
      obtain ⟨m, hm, -, hequal⟩ :=
        exists_mem_of_forall₂ (Json.forall₂_of_equivalentMembers heq).flip hm'
      exact ih m hm (h.2 m hm) hequal
    | null | bool | num | str | arr => simp [Json.equivalent] at heq
  | null | bool | num | str =>
    cases v with
    | arr | obj => simp [Json.equivalent] at heq
    | null | bool | num | str => exact settled_of_inner_eq_nil rfl

/-! ### Literals that meet themselves -/

theorem meetsConst_self (c : Json) : meetsConst c c = true := by
  cases c with
  | num n => simp [meetsConst]
  | null | bool | str | arr | obj => exact Json.equivalent_refl _

/-- The tolerance is for numbers, and a number is its own spelling. -/
theorem equivalent_of_meetsConst (h : meetsConst (spellNullable c) c = true) :
    (spellNullable c).equivalent c = true := by
  cases c with
  | arr | obj => simpa [meetsConst, spellNullable] using h
  | null | bool | num | str => simp [spellNullable]

/-- **A literal meets itself**, once `nullable` has been spelled out of it, exactly when it is
settled. -/
theorem meetsConst_spellNullable_iff : meetsConst (spellNullable c) c = true ↔ Settled c := by
  constructor
  · exact fun h => (settled_spellNullable c).of_equivalent (equivalent_of_meetsConst h)
  · intro h
    rw [h.spellNullable_eq]
    exact meetsConst_self c

/-- One of several literals is among them, once they have been spelled out, exactly when it is
settled. -/
theorem any_equivalent_spellNullable_iff {options : List Json} (h : c ∈ options) :
    ((options.map spellNullable).any fun option => option.equivalent c) = true ↔ Settled c := by
  rw [List.any_map, List.any_eq_true]
  constructor
  · rintro ⟨option, -, heq⟩
    exact (settled_spellNullable option).of_equivalent heq
  · intro hsettled
    refine ⟨c, h, ?_⟩
    rw [Function.comp_apply, hsettled.spellNullable_eq]
    exact Json.equivalent_refl c

/-! ### Schemas with literals and nothing else -/

/-- **A schema of literals**: `const` or `enum`, under any nesting of `properties` and `items`. -/
inductive OfLiterals : Json → Prop
  | const (c : Json) : OfLiterals (.obj [("const", c)])
  | enum (options : List Json) : OfLiterals (.obj [("enum", .arr options)])
  | properties {ps : Members} (h : ∀ m ∈ ps, OfLiterals m.2) :
      OfLiterals (.obj [("properties", .obj ps)])
  | items {inner : Json} (h : OfLiterals inner) : OfLiterals (.obj [("items", inner)])

/-- **A value is nested as a schema of literals is**, with one of its literals in each place, and
all literals that are there have a property. -/
inductive Nests (P : Json → Prop) : Json → Json → Prop
  | const {c : Json} (h : P c) : Nests P (.obj [("const", c)]) c
  | enum {options : List Json} {c : Json} (hc : c ∈ options) (h : P c) :
      Nests P (.obj [("enum", .arr options)]) c
  | properties {ps vs : Members}
      (h : ∀ m ∈ ps, ∀ w, Entries.get? vs m.1 = some w → Nests P m.2 w) :
      Nests P (.obj [("properties", .obj ps)]) (.obj vs)
  | items {inner : Json} {ws : List Json} (h : ∀ w ∈ ws, Nests P inner w) :
      Nests P (.obj [("items", inner)]) (.arr ws)

section Nests

variable {P : Json → Prop}

theorem nests_const_iff : Nests P (.obj [("const", c)]) v ↔ v = c ∧ P c := by
  constructor
  · intro h
    generalize hs : Json.obj [("const", c)] = schema at h
    cases h with
    | const h =>
      cases hs
      exact ⟨rfl, h⟩
    | enum | properties | items => simp at hs
  · rintro ⟨rfl, h⟩
    exact .const h

theorem nests_enum_iff {options : List Json} :
    Nests P (.obj [("enum", .arr options)]) v ↔ v ∈ options ∧ P v := by
  constructor
  · intro h
    generalize hs : Json.obj [("enum", .arr options)] = schema at h
    cases h with
    | enum hc h =>
      cases hs
      exact ⟨hc, h⟩
    | const | properties | items => simp at hs
  · rintro ⟨hc, h⟩
    exact .enum hc h

theorem nests_properties_iff {ps : Members} : Nests P (.obj [("properties", .obj ps)]) v ↔
    ∃ vs, v = .obj vs ∧ ∀ m ∈ ps, ∀ w, Entries.get? vs m.1 = some w → Nests P m.2 w := by
  constructor
  · intro h
    generalize hs : Json.obj [("properties", .obj ps)] = schema at h
    cases h with
    | properties h =>
      cases hs
      exact ⟨_, rfl, h⟩
    | const | enum | items => simp at hs
  · rintro ⟨vs, rfl, h⟩
    exact .properties h

theorem nests_items_iff {inner : Json} : Nests P (.obj [("items", inner)]) v ↔
    ∃ ws, v = .arr ws ∧ ∀ w ∈ ws, Nests P inner w := by
  constructor
  · intro h
    generalize hs : Json.obj [("items", inner)] = schema at h
    cases h with
    | items h =>
      cases hs
      exact ⟨_, rfl, h⟩
    | const | enum | properties => simp at hs
  · rintro ⟨ws, rfl, h⟩
    exact .items h

end Nests

/-! ### Schemas with one keyword -/

section Single

variable {keyword : String} {refs : String → Check} {place : Pointer}

theorem spellNullable_single (h : keyword ≠ "nullable") (j : Json) :
    spellNullable (.obj [(keyword, j)]) = .obj [(keyword, spellNullable j)] := by
  rw [spellNullable_obj (by rw [Entries.get?, if_neg h]; rfl), List.map_singleton]

theorem isSchema_single_iff : IsSchema (.obj [(keyword, j)]) ↔
    ∀ form, Entries.get? metaForms keyword = some form → Fits form j := by
  have hordered : Entries.Ordered [(keyword, j)] := List.pairwise_singleton _ _
  rw [isSchema_obj_iff_of_ordered hordered, List.forall_mem_singleton]

theorem check_single_eq_nil_iff (h : keyword ≠ "$ref") :
    (Part.of refs (.obj [(keyword, j)])).check v place = [] ↔
      keywordCheck (Part.ofMembers refs [(keyword, j)]) keyword (Part.of refs j) v place = [] := by
  have hown : Entries.get? [(keyword, j)] "$ref" = none := by
    rw [Entries.get?, if_neg h]
    rfl
  rw [check_of_obj_eq_nil_iff (ownReference?_eq_none hown), List.forall_mem_singleton]

end Single

/-- A list of schemas of literals by name does not look marked. -/
theorem not_looksMarked_of_ofLiterals (h : ∀ m ∈ members, OfLiterals m.2) :
    ¬LooksMarked members := by
  have htype : ∀ j, Entries.get? members "type" = some j → OfLiterals j :=
    fun j hj => h _ (Entries.mem_of_get?_eq_some hj)
  rintro ⟨-, ⟨t, ht⟩ | ⟨ts, hts, -⟩⟩
  · cases htype _ ht
  · cases htype _ hts

theorem OfLiterals.exists_eq_obj (h : OfLiterals j) : ∃ members, j = .obj members := by
  cases h <;> exact ⟨_, rfl⟩

/-- **A schema of literals is a schema**, once it has been spelled out. -/
theorem OfLiterals.isSchema (h : OfLiterals j) : IsSchema (spellNullable j) := by
  induction h with
  | const c =>
    rw [spellNullable_single (by decide), isSchema_single_iff]
    intro form hform
    obtain rfl : .bool true = form := Option.some.inj (Eq.trans (by with_unfolding_all rfl) hform)
    rfl
  | enum options =>
    rw [spellNullable_single (by decide), isSchema_single_iff, spellNullable]
    intro form hform
    obtain rfl : Json.obj [("items", .bool true), ("type", .str "array")] = form :=
      Option.some.inj (Eq.trans (by with_unfolding_all rfl) hform)
    rw [Fits, check_of_obj_eq_nil_iff (by rfl)]
    generalize reference metaSchema _ = refs
    have hitems : itemsCheck (Part.of refs (.bool true)) (.arr (spellNullableItems options)) [] =
        [] := eachItem_eq_nil (fun _ _ _ => rfl) 0
    have htype : typeCheck (Part.of refs (.str "array")) (.arr (spellNullableItems options)) [] =
        [] := typeCheck_eq_nil_iff.mpr rfl
    simp only [List.forall_mem_cons]
    exact ⟨hitems, htype, List.forall_mem_nil _⟩
  | properties hps ih =>
    rw [spellNullable_single (by decide),
      spellNullable_of_not_looksMarked (not_looksMarked_of_ofLiterals hps), isSchema_single_iff]
    intro form hform
    obtain rfl : schemaMap = form := Option.some.inj (Eq.trans (by with_unfolding_all rfl) hform)
    exact fits_schemaMap_iff.mpr ⟨_, rfl, List.forall_mem_map.mpr ih⟩
  | items _ ih =>
    rw [spellNullable_single (by decide), isSchema_single_iff]
    exact fun form hform => (fits_items_iff hform).mpr (Or.inl ih)

/-- **The check of a schema of literals** asks for settled literals, whatever references mean. -/
theorem OfLiterals.check_eq_nil_iff (h : OfLiterals j) (hv : Nests (fun _ => True) j v)
    (refs : String → Check) (place : Pointer) :
    (Part.of refs (spellNullable j)).check v place = [] ↔ Nests Settled j v := by
  induction h generalizing v place with
  | const c =>
    obtain ⟨rfl, -⟩ := nests_const_iff.mp hv
    have hcheck : constCheck (Part.of refs (spellNullable v)) v place = [] ↔ Settled v := by
      rw [constCheck, ensure_eq_nil_iff, json_of, meetsConst_spellNullable_iff]
    rw [spellNullable_single (by decide), check_single_eq_nil_iff (by decide), nests_const_iff,
      eq_self, true_and]
    exact hcheck
  | enum options =>
    obtain ⟨hmem, -⟩ := nests_enum_iff.mp hv
    have hcheck : enumCheck (Part.of refs (.arr (options.map spellNullable))) v place = [] ↔
        Settled v := by
      simp only [enumCheck, json_of, ensure_eq_nil_iff]
      exact any_equivalent_spellNullable_iff hmem
    rw [spellNullable_single (by decide), spellNullable, spellNullableItems_eq_map,
      check_single_eq_nil_iff (by decide), nests_enum_iff, and_iff_right hmem]
    exact hcheck
  | @properties ps hps ih =>
    obtain ⟨vs, rfl, hvs⟩ := nests_properties_iff.mp hv
    have hcheck : propertiesCheck
        (Part.ofMembers refs
          [("properties", .obj (ps.map fun m => (m.1, spellNullable m.2)))])
        (Part.of refs (.obj (ps.map fun m => (m.1, spellNullable m.2)))) (.obj vs) place = [] ↔
        ∀ m ∈ ps, ∀ w, Entries.get? vs m.1 = some w → Nests Settled m.2 w := by
      rw [propertiesCheck_eq_nil_iff (by rfl), List.forall_mem_map]
      exact forall₂_congr fun m hm => forall₂_congr fun w hw => ih m hm (hvs m hm w hw) _
    rw [spellNullable_single (by decide),
      spellNullable_of_not_looksMarked (not_looksMarked_of_ofLiterals hps),
      check_single_eq_nil_iff (by decide), nests_properties_iff]
    simp only [Json.obj.injEq, exists_eq_left']
    exact hcheck
  | @items inner hinner ih =>
    obtain ⟨ws, rfl, hws⟩ := nests_items_iff.mp hv
    have heach : itemsCheck (Part.of refs (spellNullable inner)) (.arr ws) place =
        eachItem (Part.of refs (spellNullable inner)).check place 0 ws := by
      obtain ⟨members, rfl⟩ := hinner.exists_eq_obj
      rw [itemsCheck, json_of, spellNullable_obj_eq]
    have hcheck : itemsCheck (Part.of refs (spellNullable inner)) (.arr ws) place = [] ↔
        ∀ w ∈ ws, Nests Settled inner w := by
      rw [heach]
      constructor
      · intro hnone w hw
        obtain ⟨place', hplace⟩ := exists_place_of_eachItem hnone w hw
        exact (ih (hws w hw) place').mp hplace
      · exact fun hall => eachItem_eq_nil
          (fun w hw place' => (ih (hws w hw) place').mpr (hall w hw)) 0
    rw [spellNullable_single (by decide), check_single_eq_nil_iff (by decide), nests_items_iff]
    simp only [Json.arr.injEq, exists_eq_left']
    exact hcheck

/-! ### Conformance -/

theorem OfLiterals.conforms_iff (h : OfLiterals j) (hv : Nests (fun _ => True) j v) :
    conforms j v = .ok () ↔ Nests Settled j v := by
  rw [Schema.conforms_iff, and_iff_right h.isSchema]
  exact h.check_eq_nil_iff hv _ []

/-- **A literal conforms to its schema when it is settled, and only then.** This holds of a value
under its own `const`, of a value among those of an `enum`, and of a value that has literals of a
schema in the places that `properties` and `items` give them, to any depth. -/
theorem conforms_literals_iff (v : Json) :
    (conforms (.obj [("const", v)]) v = .ok () ↔ Settled v) ∧
    (∀ options, v ∈ options →
      (conforms (.obj [("enum", .arr options)]) v = .ok () ↔ Settled v)) ∧
    ∀ schema, OfLiterals schema → Nests (fun _ => True) schema v →
      (conforms schema v = .ok () ↔ Nests Settled schema v) := by
  refine ⟨?_, fun options hv => ?_, fun _ => OfLiterals.conforms_iff⟩
  · rw [(OfLiterals.const v).conforms_iff (.const trivial), nests_const_iff, eq_self, true_and]
  · rw [(OfLiterals.enum options).conforms_iff (.enum hv trivial), nests_enum_iff,
      and_iff_right hv]

/-- An object that says `nullable: true` and has no `type`. -/
def flagged : Json := .obj [("nullable", .bool true)]

/-- Lists of such objects and ones, as a member. -/
def flaggedLists : Json :=
  .obj [("properties", .obj [("a", .obj [("items", .obj [("enum", .arr [flagged, .nat 1])])])])]

theorem conforms_literals_iff_flagged :
    (flagged ∈ [flagged, .nat 1] ∧
      (conforms (.obj [("enum", .arr [flagged, .nat 1])]) flagged = .ok () ↔ Settled flagged)) ∧
    OfLiterals flaggedLists ∧
    Nests (fun _ => True) flaggedLists (.obj [("a", .arr [flagged, flagged])]) ∧
    Nests Settled flaggedLists (.obj [("a", .arr [flagged, flagged])]) ∧
    conforms flaggedLists (.obj [("a", .arr [flagged, flagged])]) = .ok () := by
  obtain ⟨-, henum, -⟩ := conforms_literals_iff flagged
  obtain ⟨-, -, hnested⟩ := conforms_literals_iff (.obj [("a", .arr [flagged, flagged])])
  have hmem : flagged ∈ [flagged, .nat 1] := List.mem_cons_self
  have hschema : OfLiterals flaggedLists :=
    .properties (List.forall_mem_singleton.mpr (.items (.enum _)))
  have hnests : ∀ P : Json → Prop, P flagged →
      Nests P flaggedLists (.obj [("a", .arr [flagged, flagged])]) := by
    intro P hP
    refine .properties (List.forall_mem_singleton.mpr fun w hw => ?_)
    cases hw
    have hitem : Nests P (.obj [("enum", .arr [flagged, .nat 1])]) flagged := .enum hmem hP
    exact .items (List.forall_mem_cons.mpr ⟨hitem, List.forall_mem_singleton.mpr hitem⟩)
  have hsettled : Settled flagged := by
    refine settled_obj_iff.mpr ⟨?_, List.forall_mem_singleton.mpr ?_⟩
    · rintro ⟨-, ⟨t, ht⟩ | ⟨ts, hts, -⟩⟩
      · cases ht
      · cases hts
    · exact settled_of_inner_eq_nil rfl
  exact ⟨⟨hmem, henum _ hmem⟩, hschema, hnests _ trivial, hnests _ hsettled,
    (hnested _ hschema (hnests _ trivial)).mpr (hnests _ hsettled)⟩

/-- **A literal that looks like a marked schema** does not conform to itself: it is compared with a
value that has a list under `type`. -/
theorem not_conforms_literal_marked :
    ¬conforms (.obj [("const", FieldPath.textOrNull)]) FieldPath.textOrNull = .ok () ∧
    ¬conforms (.obj [("enum", .arr [FieldPath.textOrNull])]) FieldPath.textOrNull = .ok () := by
  rw [← isConforming_iff, ← isConforming_iff]
  decide +kernel

end Schema

end CallChain
