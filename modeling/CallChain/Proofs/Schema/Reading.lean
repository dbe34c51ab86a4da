import CallChain.Proofs.Schema.Keywords

/-!
# What a verdict depends on

A schema is read together with the meaning of references, and it objects to a value at a place. The
verdict, whether it objects at all, depends on less than that: not on the place, and on a reference
only where the reference is met. A keyword such as `allOf` reads its parts at the value itself, so a
reference under it is met there; a keyword such as `properties` reads its parts at smaller values.

* `CallChain.Json.references`: the names that a value refers to, at any depth.
* `CallChain.Json.metReferences`: those that may be met at the value itself.
* `CallChain.Schema.Agree`: two checks come to the same verdict on a value, wherever it stands.
* `CallChain.Schema.agree_of`: two readings of a schema agree when their references do, the met ones
  at the value and all of them at smaller values.
* `CallChain.Schema.agree_of_references_eq_nil`: without references, any two readings agree.
-/

set_option autoImplicit false

namespace CallChain

namespace Json

/-! ### Parts of a value -/

/-- The items of an array; other values have none. -/
def elements : Json → List Json
  | .arr items => items
  | _ => []

/-- The members of an object; other values have none. -/
def entries : Json → Members
  | .obj members => members
  | _ => []

/-- The values right inside a value. -/
def inner (j : Json) : List Json := j.elements ++ j.entries.map (·.2)

theorem size_pos (j : Json) : 0 < j.size := by
  cases j <;> simp only [size] <;> omega

theorem size_le_sizeItems {items : List Json} {j : Json} (h : j ∈ items) :
    j.size ≤ sizeItems items := by
  induction items with
  | nil => cases h
  | cons first rest ih =>
    rw [sizeItems]
    rcases List.mem_cons.mp h with rfl | hlater
    · omega
    · exact (ih hlater).trans (Nat.le_add_left _ _)

theorem size_le_sizeMembers {members : Members} {m : String × Json} (h : m ∈ members) :
    m.2.size ≤ sizeMembers members := by
  induction members with
  | nil => cases h
  | cons first rest ih =>
    rw [sizeMembers]
    rcases List.mem_cons.mp h with rfl | hlater
    · omega
    · exact (ih hlater).trans (Nat.le_add_left _ _)

theorem size_lt_of_mem_items {items : List Json} {j : Json} (h : j ∈ items) :
    j.size < (Json.arr items).size := by
  rw [size]
  have hle := size_le_sizeItems h
  omega

theorem size_lt_of_mem_members {members : Members} {m : String × Json} (h : m ∈ members) :
    m.2.size < (Json.obj members).size := by
  rw [size]
  have hle := size_le_sizeMembers h
  omega

/-- The parts of a value are smaller. -/
theorem size_lt_of_mem_inner {j part : Json} (h : part ∈ j.inner) : part.size < j.size := by
  cases j with
  | arr items => exact size_lt_of_mem_items (by simpa [inner, elements, entries] using h)
  | obj members =>
    obtain ⟨name, hm⟩ : ∃ name, (name, part) ∈ members := by
      simpa [inner, elements, entries] using h
    exact size_lt_of_mem_members hm
  | null | bool | num | str => cases h

/-- **Induction on the parts of a value**: on the items of an array and the members of an object,
which stand in lists. -/
@[elab_as_elim]
theorem parts_induction {motive : Json → Prop} (null : motive .null)
    (bool : ∀ value, motive (.bool value)) (num : ∀ value, motive (.num value))
    (str : ∀ value, motive (.str value))
    (arr : ∀ items : List Json, (∀ j ∈ items, motive j) → motive (.arr items))
    (obj : ∀ members : Members, (∀ m ∈ members, motive m.2) → motive (.obj members)) (j : Json) :
    motive j := by
  induction hn : j.size using Nat.strong_induction_on generalizing j with
  | _ n ih =>
    cases j with
    | arr items => exact arr items fun j hj => ih _ (hn ▸ size_lt_of_mem_items hj) j rfl
    | obj members => exact obj members fun m hm => ih _ (hn ▸ size_lt_of_mem_members hm) m.2 rfl
    | null => exact null
    | bool value => exact bool value
    | num value => exact num value
    | str value => exact str value

/-- The name of a member is smaller than the object, taken as a value. -/
theorem size_str_lt_of_mem_members {members : Members} {m : String × Json} (h : m ∈ members)
    (name : String) : (Json.str name).size < (Json.obj members).size := by
  have hpos := size_pos m.2
  have hlt := size_lt_of_mem_members h
  simp only [size] at hlt ⊢
  omega

/-! ### References in a value -/

/-- The name that an object refers to: the text under `$ref`. -/
def ownReference? (members : Members) : Option String :=
  (Entries.get? members "$ref").bind string?

mutual

/-- **The names that a value refers to**, at any depth. -/
def references : Json → List String
  | .arr items => referencesOfItems items
  | .obj members => (ownReference? members).toList ++ referencesOfMembers members
  | _ => []

/-- The names that items refer to. -/
def referencesOfItems : List Json → List String
  | [] => []
  | j :: rest => references j ++ referencesOfItems rest

/-- The names that members refer to. -/
def referencesOfMembers : List (String × Json) → List String
  | [] => []
  | (_, j) :: rest => references j ++ referencesOfMembers rest

end

/-- The keywords that read their parts at the value itself. -/
def inPlaceKeywords : List String :=
  ["allOf", "anyOf", "dependencies", "else", "if", "not", "oneOf", "then"]

/-- **The names that may be met at the value itself** when a schema is read. -/
def metReferences : Json → List String
  | .obj members =>
    match ownReference? members with
    | some name => [name]
    | none => members.flatMap fun m => if m.1 ∈ inPlaceKeywords then m.2.references else []
  | _ => []

theorem mem_referencesOfItems {items : List Json} {name : String} :
    name ∈ referencesOfItems items ↔ ∃ j ∈ items, name ∈ j.references := by
  induction items with
  | nil => simp [referencesOfItems]
  | cons j rest ih => rw [referencesOfItems, List.mem_append, ih, List.exists_mem_cons_iff]

theorem mem_referencesOfMembers {members : Members} {name : String} :
    name ∈ referencesOfMembers members ↔ ∃ m ∈ members, name ∈ m.2.references := by
  induction members with
  | nil => simp [referencesOfMembers]
  | cons m rest ih => rw [referencesOfMembers, List.mem_append, ih, List.exists_mem_cons_iff]

theorem mem_references_of_mem_members {members : Members} {m : String × Json} {name : String}
    (hm : m ∈ members) (h : name ∈ m.2.references) : name ∈ (Json.obj members).references := by
  rw [references, List.mem_append, mem_referencesOfMembers]
  exact Or.inr ⟨m, hm, h⟩

/-- What a part refers to, the value refers to. -/
theorem mem_references_of_mem_inner {j part : Json} {name : String} (hpart : part ∈ j.inner)
    (h : name ∈ part.references) : name ∈ j.references := by
  cases j with
  | arr items =>
    rw [references, mem_referencesOfItems]
    exact ⟨part, by simpa [inner, elements, entries] using hpart, h⟩
  | obj members =>
    obtain ⟨key, hm⟩ : ∃ key, (key, part) ∈ members := by
      simpa [inner, elements, entries] using hpart
    exact mem_references_of_mem_members hm h
  | null | bool | num | str => cases hpart

theorem metReferences_subset (j : Json) : j.metReferences ⊆ j.references := by
  intro name h
  cases j with
  | obj members =>
    rw [metReferences] at h
    split at h
    · rename_i own hown
      rw [references, hown]
      exact List.mem_append_left _ h
    · obtain ⟨m, hm, hname⟩ := List.mem_flatMap.mp h
      split at hname
      · exact mem_references_of_mem_members hm hname
      · cases hname
  | null | bool | num | str | arr => cases h

end Json

namespace Schema

/-! ### Parts and their readings -/

theorem items_of (refs : String → Check) (j : Json) :
    (Part.of refs j).items = j.elements.map (Part.of refs) := by
  have hitems : ∀ items : List Json, Part.ofItems refs items = items.map (Part.of refs) := by
    intro items
    induction items with
    | nil => rw [Part.ofItems, List.map_nil]
    | cons j rest ih => rw [Part.ofItems, ih, List.map_cons]
  rcases j with _ | ⟨_ | _⟩ | _ | _ | items | _ <;>
    simp [Part.of, Part.items, Json.elements, hitems]

theorem members_of (refs : String → Check) (j : Json) :
    (Part.of refs j).members = Part.ofMembers refs j.entries := by
  rcases j with _ | ⟨_ | _⟩ | _ | _ | _ | _ <;>
    simp [Part.of, Part.members, Part.ofMembers, Json.entries]

/-- **The check of an object**: the meaning of its own reference, or else its keywords. -/
theorem check_of_obj (refs : String → Check) (members : Members) (v : Json) (place : Pointer) :
    (Part.of refs (.obj members)).check v place =
      match Json.ownReference? members with
      | some name => refs name v place
      | none => members.flatMap fun m =>
          keywordCheck (Part.ofMembers refs members) m.1 (Part.of refs m.2) v place := by
  have hjson : ((part? (Part.ofMembers refs members) "$ref").map Part.json) =
      Entries.get? members "$ref" := by
    rw [part?_ofMembers, Option.map_map]
    cases Entries.get? members "$ref" <;> simp [json_of]
  rw [Part.of, Part.check, objectCheck, hjson, Json.ownReference?]
  have hparts : ∀ parts, (Part.ofMembers refs members).flatMap
      (fun q => keywordCheck parts q.1 q.2 v place) =
        members.flatMap fun m => keywordCheck parts m.1 (Part.of refs m.2) v place := by
    intro parts
    rw [ofMembers_eq_map, List.flatMap_map]
  rcases Entries.get? members "$ref" with _ | j
  · exact hparts _
  · cases j with
    | str name => rfl
    | null | bool | num | arr | obj => exact hparts _

/-! ### Agreement -/

/-- **Two checks agree on a value**: wherever it stands, both object to it or neither does. -/
def Agree (c c' : Check) (v : Json) : Prop := ∀ place place', c v place = [] ↔ c' v place' = []

/-- Two readings of a schema that agree let the same values pass. -/
theorem Agree.passes_eq {p q : Part} {v : Json} (h : Agree p.check q.check v) :
    p.passes v = q.passes v := by
  rw [Bool.eq_iff_iff, Part.passes, Part.passes, List.isEmpty_iff, List.isEmpty_iff]
  exact h [] []

/-! ### Keywords that read no parts -/

section Plain

variable {p q : Part} {v : Json}

theorem agree_typeCheck (h : p.json = q.json) : Agree (typeCheck p) (typeCheck q) v := by
  intro a b
  simp only [typeCheck, h, ensure_eq_nil_iff]

theorem agree_constCheck (h : p.json = q.json) : Agree (constCheck p) (constCheck q) v := by
  intro a b
  simp only [constCheck, h, ensure_eq_nil_iff]

theorem agree_enumCheck (h : p.json = q.json) : Agree (enumCheck p) (enumCheck q) v := by
  intro a b
  unfold enumCheck
  rw [h]
  split <;> simp only [ensure_eq_nil_iff]

theorem agree_limitCheck (h : p.json = q.json) (relation : Relation) :
    Agree (limitCheck relation p) (limitCheck relation q) v := by
  intro a b
  unfold limitCheck
  rw [h]
  split <;> simp only [ensure_eq_nil_iff]

theorem agree_multipleCheck (h : p.json = q.json) :
    Agree (multipleCheck p) (multipleCheck q) v := by
  intro a b
  unfold multipleCheck
  rw [h]
  split <;> simp only [ensure_eq_nil_iff]

theorem agree_leastCheck (h : p.json = q.json) (measure : Measure) :
    Agree (leastCheck measure p) (leastCheck measure q) v := by
  intro a b
  unfold leastCheck
  rw [h]
  split <;> simp only [ensure_eq_nil_iff]

theorem agree_mostCheck (h : p.json = q.json) (measure : Measure) :
    Agree (mostCheck measure p) (mostCheck measure q) v := by
  intro a b
  unfold mostCheck
  rw [h]
  split <;> simp only [ensure_eq_nil_iff]

theorem agree_patternCheck (h : p.json = q.json) : Agree (patternCheck p) (patternCheck q) v := by
  intro a b
  unfold patternCheck
  rw [h]
  split <;> simp only [ensure_eq_nil_iff]

theorem agree_formatCheck (h : p.json = q.json) : Agree (formatCheck p) (formatCheck q) v := by
  intro a b
  unfold formatCheck
  rw [h]
  split <;> simp only [ensure_eq_nil_iff]

theorem agree_uniqueCheck (h : p.json = q.json) : Agree (uniqueCheck p) (uniqueCheck q) v := by
  intro a b
  unfold uniqueCheck
  rw [h]
  split <;> simp only [ensure_eq_nil_iff]

theorem agree_requiredCheck (h : p.json = q.json) :
    Agree (requiredCheck p) (requiredCheck q) v := by
  intro a b
  unfold requiredCheck
  rw [h]
  split <;> simp only [List.flatMap_eq_nil_iff, ensure_eq_nil_iff]

end Plain

/-! ### Keywords that read parts at the value itself -/

section InPlace

variable {refs refs' : String → Check} {j v : Json}

/-- The numbers of readings that pass are the same. -/
theorem passes_map_eq {js : List Json}
    (h : ∀ k ∈ js, Agree (Part.of refs k).check (Part.of refs' k).check v) :
    (js.map (Part.of refs)).map (·.passes v) = (js.map (Part.of refs')).map (·.passes v) := by
  rw [List.map_map, List.map_map]
  exact List.map_congr_left fun k hk => (h k hk).passes_eq

theorem agree_allCheck
    (h : ∀ k ∈ j.elements, Agree (Part.of refs k).check (Part.of refs' k).check v) :
    Agree (allCheck (Part.of refs j)) (allCheck (Part.of refs' j)) v := by
  intro a b
  simp only [allCheck, items_of, List.flatMap_eq_nil_iff, List.forall_mem_map]
  exact forall₂_congr fun k hk => h k hk a b

theorem agree_anyCheck
    (h : ∀ k ∈ j.elements, Agree (Part.of refs k).check (Part.of refs' k).check v) :
    Agree (anyCheck (Part.of refs j)) (anyCheck (Part.of refs' j)) v := by
  intro a b
  have hany : ∀ ps : List Part, ps.any (·.passes v) = (ps.map (·.passes v)).any id := by
    intro ps
    rw [List.any_map]
    rfl
  rw [anyCheck, anyCheck, ensure_eq_nil_iff, ensure_eq_nil_iff, items_of, items_of, hany, hany,
    passes_map_eq h]

/-- `oneOf` asks for exactly one reading that passes. -/
theorem oneCheck_eq_nil_iff {p : Part} {place : Pointer} :
    oneCheck p v place = [] ↔ (p.items.map (·.passes v)).count true = 1 := by
  have hcount : (p.items.map (·.passes v)).count true = (p.items.filter (·.passes v)).length := by
    rw [List.count, List.countP_map, List.countP_eq_length_filter]
    exact congrArg List.length (List.filter_congr fun q _ => by simp)
  rw [hcount, oneCheck]
  split
  · rename_i hnone
    simp [hnone]
  · rename_i hone
    simp [hone]
  · rename_i hnil hone
    simp only [reduceCtorEq, false_iff, List.length_eq_one_iff, not_exists]
    exact hone

theorem agree_oneCheck
    (h : ∀ k ∈ j.elements, Agree (Part.of refs k).check (Part.of refs' k).check v) :
    Agree (oneCheck (Part.of refs j)) (oneCheck (Part.of refs' j)) v := by
  intro a b
  rw [oneCheck_eq_nil_iff, oneCheck_eq_nil_iff, items_of, items_of, passes_map_eq h]

theorem agree_notCheck (h : Agree (Part.of refs j).check (Part.of refs' j).check v) :
    Agree (notCheck (Part.of refs j)) (notCheck (Part.of refs' j)) v := by
  intro a b
  rw [notCheck, notCheck, ensure_eq_nil_iff, ensure_eq_nil_iff, h.passes_eq]

theorem agree_ifCheck {members : Members}
    (h : Agree (Part.of refs j).check (Part.of refs' j).check v)
    (hbranch : ∀ m ∈ members, m.1 ∈ ["then", "else"] →
      Agree (Part.of refs m.2).check (Part.of refs' m.2).check v) :
    Agree (ifCheck (Part.ofMembers refs members) (Part.of refs j))
      (ifCheck (Part.ofMembers refs' members) (Part.of refs' j)) v := by
  intro a b
  -- The verdict on `if` is the same, so both readings turn to the same branch.
  rw [ifCheck, ifCheck, h.passes_eq, part?_ofMembers, part?_ofMembers]
  have hname : (if (Part.of refs' j).passes v = true then "then" else "else") ∈
      ["then", "else"] := by
    split <;> decide
  rcases hbranch' : Entries.get? members
      (if (Part.of refs' j).passes v = true then "then" else "else") with _ | k
  · rfl
  · exact hbranch _ (Entries.mem_of_get?_eq_some hbranch') hname a b

theorem agree_dependenciesCheck
    (h : ∀ m ∈ j.entries, Agree (Part.of refs m.2).check (Part.of refs' m.2).check v) :
    Agree (dependenciesCheck (Part.of refs j)) (dependenciesCheck (Part.of refs' j)) v := by
  intro a b
  unfold dependenciesCheck
  split
  · simp only [members_of, ofMembers_eq_map, List.flatMap_eq_nil_iff, List.forall_mem_map, json_of]
    refine forall₂_congr fun m hm => ?_
    split
    · split
      · exact agree_requiredCheck (by rw [json_of, json_of]) a b
      · exact h m hm a b
    · rfl
  · rfl

end InPlace

/-! ### Keywords that read parts at smaller values -/

section Below

variable {refs refs' : String → Check} {j v : Json} {members : Members}

/-- **Two readings agree below a value**: they agree on all values that are smaller. -/
def AgreeBelow (refs refs' : String → Check) (schema v : Json) : Prop :=
  ∀ w : Json, w.size < v.size → Agree (Part.of refs schema).check (Part.of refs' schema).check w

theorem agree_eachItem {c c' : Check} {vs : List Json} (h : ∀ w ∈ vs, Agree c c' w)
    (a b : Pointer) (n m : ℕ) : eachItem c a n vs = [] ↔ eachItem c' b m vs = [] := by
  induction vs generalizing n m with
  | nil => rfl
  | cons w rest ih =>
    simp only [eachItem, List.append_eq_nil_iff]
    exact and_congr (h w List.mem_cons_self _ _)
      (ih (fun x hx => h x (List.mem_cons_of_mem _ hx)) _ _)

theorem agree_itemwise {js vs : List Json}
    (h : ∀ k ∈ js, ∀ w ∈ vs, Agree (Part.of refs k).check (Part.of refs' k).check w)
    (a b : Pointer) (n m : ℕ) :
    itemwise a n (js.map (Part.of refs)) vs = [] ↔
      itemwise b m (js.map (Part.of refs')) vs = [] := by
  induction js generalizing vs n m with
  | nil => rfl
  | cons k more ih =>
    cases vs with
    | nil => rfl
    | cons w rest =>
      simp only [List.map_cons, itemwise, List.append_eq_nil_iff]
      exact and_congr (h k List.mem_cons_self w List.mem_cons_self _ _)
        (ih (fun k' hk' w' hw' => h k' (List.mem_cons_of_mem _ hk') w'
          (List.mem_cons_of_mem _ hw')) _ _)

theorem agree_itemsCheck (h : AgreeBelow refs refs' j v)
    (hinner : ∀ k ∈ j.elements, AgreeBelow refs refs' k v) :
    Agree (itemsCheck (Part.of refs j)) (itemsCheck (Part.of refs' j)) v := by
  intro a b
  unfold itemsCheck
  split
  · rw [json_of, json_of, items_of, items_of]
    split
    · exact agree_itemwise (fun k hk w hw => hinner k hk w (Json.size_lt_of_mem_items hw)) a b 0 0
    · exact agree_eachItem (fun w hw => h w (Json.size_lt_of_mem_items hw)) a b 0 0
  · rfl

theorem agree_extraItemsCheck (h : AgreeBelow refs refs' j v) :
    Agree (extraItemsCheck (Part.ofMembers refs members) (Part.of refs j))
      (extraItemsCheck (Part.ofMembers refs' members) (Part.of refs' j)) v := by
  intro a b
  unfold extraItemsCheck
  rw [part?_ofMembers, part?_ofMembers]
  cases v with
  | arr vs =>
    rcases Entries.get? members "items" with _ | known
    · rfl
    · simp only [Option.map_some, json_of]
      split
      · split
        · simp only [ensure_eq_nil_iff]
        · exact agree_eachItem
            (fun w hw => h w (Json.size_lt_of_mem_items (List.mem_of_mem_drop hw))) a b _ _
      · rfl
  | null | bool | num | str | obj => rfl

theorem agree_containsCheck (h : AgreeBelow refs refs' j v) :
    Agree (containsCheck (Part.of refs j)) (containsCheck (Part.of refs' j)) v := by
  intro a b
  unfold containsCheck
  split
  · rename_i vs
    simp only [ensure_eq_nil_iff, List.any_eq_true]
    refine exists_congr fun w => and_congr_right fun hw => ?_
    rw [(h w (Json.size_lt_of_mem_items hw)).passes_eq]
  · rfl

/-- Whether `additionalProperties` takes over can be seen from its value. -/
theorem extraTakesOver_eq (refs refs' : String → Check) (members : Members) :
    extraTakesOver (Part.ofMembers refs members) =
      extraTakesOver (Part.ofMembers refs' members) := by
  rw [extraTakesOver, extraTakesOver, part?_ofMembers, part?_ofMembers]
  cases Entries.get? members "additionalProperties" with
  | none => rfl
  | some extra => simp only [Option.map_some, json_of]

theorem agree_propertiesCheck (hinner : ∀ m ∈ j.entries, AgreeBelow refs refs' m.2 v) :
    Agree (propertiesCheck (Part.ofMembers refs members) (Part.of refs j))
      (propertiesCheck (Part.ofMembers refs' members) (Part.of refs' j)) v := by
  intro a b
  unfold propertiesCheck
  rw [extraTakesOver_eq refs refs' members, members_of, members_of]
  split
  · rename_i vs
    split
    · rfl
    · simp only [ofMembers_eq_map, List.flatMap_eq_nil_iff, List.forall_mem_map]
      refine forall₂_congr fun m hm => ?_
      split
      · rename_i w hw
        exact hinner m hm w (Json.size_lt_of_mem_members (Entries.mem_of_get?_eq_some hw)) _ _
      · rfl
  · rfl

theorem agree_patternPropertiesCheck (hinner : ∀ m ∈ j.entries, AgreeBelow refs refs' m.2 v) :
    Agree (patternPropertiesCheck (Part.ofMembers refs members) (Part.of refs j))
      (patternPropertiesCheck (Part.ofMembers refs' members) (Part.of refs' j)) v := by
  intro a b
  unfold patternPropertiesCheck
  rw [extraTakesOver_eq refs refs' members, members_of, members_of]
  split
  · rename_i vs
    split
    · rfl
    · simp only [ofMembers_eq_map, List.flatMap_eq_nil_iff, List.forall_mem_map]
      refine forall₂_congr fun m hm => forall₂_congr fun n hn => ?_
      split
      · exact hinner m hm n.2 (Json.size_lt_of_mem_members hn) _ _
      · rfl
  · rfl

theorem agree_namesCheck (h : AgreeBelow refs refs' j v) :
    Agree (namesCheck (Part.of refs j)) (namesCheck (Part.of refs' j)) v := by
  intro a b
  unfold namesCheck
  split
  · rename_i vs
    rw [json_of, json_of]
    split
    · simp only [ensure_eq_nil_iff]
    · simp only [List.flatMap_eq_nil_iff, List.map_eq_nil_iff]
      exact forall₂_congr fun m hm => h _ (Json.size_str_lt_of_mem_members hm m.1) _ _
  · rfl

/-! ### Members that are known -/

/-- Whether a member is known can be seen from the names. -/
theorem snd_knownMember_eq (refs refs' : String → Check) (ps qs : Members) (a b : Pointer)
    (name : String) (w : Json) :
    (knownMember (Part.ofMembers refs ps) (Part.ofMembers refs qs) a name w).2 =
      (knownMember (Part.ofMembers refs' ps) (Part.ofMembers refs' qs) b name w).2 := by
  simp only [knownMember, part?_ofMembers, Option.isSome_map]
  simp [ofMembers_eq_map, List.filter_map, Function.comp_def]

theorem agree_knownMember {ps qs : Members} {w : Json}
    (hps : ∀ m ∈ ps, Agree (Part.of refs m.2).check (Part.of refs' m.2).check w)
    (hqs : ∀ m ∈ qs, Agree (Part.of refs m.2).check (Part.of refs' m.2).check w)
    (a b : Pointer) (name : String) :
    (knownMember (Part.ofMembers refs ps) (Part.ofMembers refs qs) a name w).1 = [] ↔
      (knownMember (Part.ofMembers refs' ps) (Part.ofMembers refs' qs) b name w).1 = [] := by
  simp only [knownMember, part?_ofMembers, List.append_eq_nil_iff]
  simp only [ofMembers_eq_map, List.filter_map, Function.comp_def, List.flatMap_eq_nil_iff,
    List.forall_mem_map]
  refine and_congr ?_ (forall₂_congr fun m hm => hqs m (List.mem_filter.mp hm).1 _ _)
  rcases hk : Entries.get? ps name with _ | k
  · rfl
  · exact hps _ (Entries.mem_of_get?_eq_some hk) _ _

/-- The members of a part under a keyword. -/
theorem members_part?_eq (refs : String → Check) (members : Members) (name : String) :
    ((part? (Part.ofMembers refs members) name).map Part.members).getD [] =
      Part.ofMembers refs (((Entries.get? members name).map Json.entries).getD []) := by
  rw [part?_ofMembers]
  rcases Entries.get? members name with _ | k
  · rw [Option.map_none, Option.map_none, Option.map_none]
    rfl
  · exact members_of refs k

theorem mem_of_mem_entries_get? {m : String × Json} {name : String}
    (h : m ∈ ((Entries.get? members name).map Json.entries).getD []) :
    ∃ k, (name, k) ∈ members ∧ m ∈ k.entries := by
  rcases hk : Entries.get? members name with _ | k
  · rw [hk] at h
    cases h
  · rw [hk] at h
    exact ⟨k, Entries.mem_of_get?_eq_some hk, h⟩

theorem agree_extraPropertiesCheck (h : AgreeBelow refs refs' j v)
    (hinner : ∀ m ∈ members, ∀ n ∈ m.2.entries, AgreeBelow refs refs' n.2 v) :
    Agree (extraPropertiesCheck (Part.ofMembers refs members) (Part.of refs j))
      (extraPropertiesCheck (Part.ofMembers refs' members) (Part.of refs' j)) v := by
  intro a b
  -- The parts of the neighbours, `properties` and `patternProperties`, are read here as well.
  have hknown : ∀ name, ∀ w : Json, w.size < v.size →
      ∀ m ∈ ((Entries.get? members name).map Json.entries).getD [],
        Agree (Part.of refs m.2).check (Part.of refs' m.2).check w := by
    intro name w hw m hm
    obtain ⟨k, hk, hmk⟩ := mem_of_mem_entries_get? hm
    exact hinner _ hk m hmk w hw
  unfold extraPropertiesCheck
  simp only [members_part?_eq, json_of]
  simp only [part?_ofMembers, Option.isNone_map]
  split
  · rename_i vs
    split
    · rfl
    · split
      · split <;> simp
      · simp only [List.append_eq_nil_iff, ensure_eq_nil_iff, List.flatMap_eq_nil_iff,
          snd_knownMember_eq refs refs' _ _ a b]
        refine and_congr_left' (forall₂_congr fun m hm => ?_)
        have hlt := Json.size_lt_of_mem_members hm
        exact agree_knownMember (hknown _ _ hlt) (hknown _ _ hlt) a b m.1
    · simp only [List.flatMap_eq_nil_iff]
      refine forall₂_congr fun m hm => ?_
      have hlt := Json.size_lt_of_mem_members hm
      rw [snd_knownMember_eq refs refs' _ _ a b]
      split
      · exact agree_knownMember (hknown _ _ hlt) (hknown _ _ hlt) a b m.1
      · exact h m.2 hlt _ _
  · rfl

end Below

/-! ### All keywords -/

variable {refs refs' : String → Check} {members : Members} {v : Json}

/-- **The verdicts of a keyword agree** when those of the parts in its schema do: below the value,
and, for the keywords that read their parts in place, at the value. -/
theorem agree_keywordCheck {keyword : String} {j : Json} (hmem : (keyword, j) ∈ members)
    (hbelow : ∀ m ∈ members, ∀ k ∈ m.2 :: m.2.inner, AgreeBelow refs refs' k v)
    (hat : ∀ m ∈ members, m.1 ∈ Json.inPlaceKeywords → ∀ k ∈ m.2 :: m.2.inner,
      Agree (Part.of refs k).check (Part.of refs' k).check v) :
    Agree (keywordCheck (Part.ofMembers refs members) keyword (Part.of refs j))
      (keywordCheck (Part.ofMembers refs' members) keyword (Part.of refs' j)) v := by
  have hjson : (Part.of refs j).json = (Part.of refs' j).json := by rw [json_of, json_of]
  have hself := hbelow _ hmem j List.mem_cons_self
  have hplace : keyword ∈ Json.inPlaceKeywords → ∀ k ∈ j :: j.inner,
      Agree (Part.of refs k).check (Part.of refs' k).check v := hat _ hmem
  have helements : ∀ k ∈ j.elements, k ∈ j :: j.inner := fun k hk =>
    List.mem_cons_of_mem _ (List.mem_append_left _ hk)
  have hentries : ∀ (k : Json), ∀ m ∈ k.entries, m.2 ∈ k :: k.inner := fun k m hm =>
    List.mem_cons_of_mem _ (List.mem_append_right _ (List.mem_map_of_mem hm))
  -- One case for each keyword, in the order of their names.
  unfold keywordCheck
  split
  · exact agree_extraItemsCheck hself
  · exact agree_extraPropertiesCheck hself fun m hm n hn => hbelow m hm _ (hentries m.2 n hn)
  · exact agree_allCheck fun k hk => hplace (by decide) k (helements k hk)
  · exact agree_anyCheck fun k hk => hplace (by decide) k (helements k hk)
  · exact agree_constCheck hjson
  · exact agree_containsCheck hself
  · exact agree_dependenciesCheck fun m hm => hplace (by decide) _ (hentries j m hm)
  · exact agree_enumCheck hjson
  · exact agree_limitCheck hjson _
  · exact agree_limitCheck hjson _
  · exact agree_formatCheck hjson
  · refine agree_ifCheck (hplace (by decide) j List.mem_cons_self) fun m hm hname =>
      hat m hm ?_ _ List.mem_cons_self
    rcases List.mem_cons.mp hname with hthen | helse
    · exact hthen ▸ by decide
    · exact List.mem_singleton.mp helse ▸ by decide
  · exact agree_itemsCheck hself fun k hk => hbelow _ hmem k (helements k hk)
  · exact agree_mostCheck hjson _
  · exact agree_mostCheck hjson _
  · exact agree_mostCheck hjson _
  · exact agree_limitCheck hjson _
  · exact agree_leastCheck hjson _
  · exact agree_leastCheck hjson _
  · exact agree_leastCheck hjson _
  · exact agree_limitCheck hjson _
  · exact agree_multipleCheck hjson
  · exact agree_notCheck (hplace (by decide) j List.mem_cons_self)
  · exact agree_oneCheck fun k hk => hplace (by decide) k (helements k hk)
  · exact agree_patternCheck hjson
  · exact agree_patternPropertiesCheck fun m hm => hbelow _ hmem _ (hentries j m hm)
  · exact agree_propertiesCheck fun m hm => hbelow _ hmem _ (hentries j m hm)
  · exact agree_namesCheck hself
  · exact agree_requiredCheck hjson
  · exact agree_typeCheck hjson
  · exact agree_uniqueCheck hjson
  · exact fun _ _ => Iff.rfl

/-! ### Whole schemas -/

/-- **Two readings of a schema come to the same verdict** on a value, wherever it stands, when the
references that are met agree on the value and all references agree on smaller values. -/
theorem agree_of {schema : Json} (hbelow : ∀ name ∈ schema.references, ∀ w : Json,
      w.size < v.size → Agree (refs name) (refs' name) w)
    (hmet : ∀ name ∈ schema.metReferences, Agree (refs name) (refs' name) v) :
    Agree (Part.of refs schema).check (Part.of refs' schema).check v := by
  -- On the size of the schema; the parts of a keyword lie two levels down.
  induction hn : schema.size using Nat.strong_induction_on generalizing schema v with
  | _ n ih =>
    cases schema with
    | obj members =>
      intro a b
      rw [check_of_obj, check_of_obj]
      have hpart : ∀ m ∈ members, ∀ k ∈ m.2 :: m.2.inner, k.size < n ∧
          k.references ⊆ m.2.references := by
        intro m hm k hk
        have hlt := Json.size_lt_of_mem_members hm
        rcases List.mem_cons.mp hk with rfl | hinner
        · exact ⟨hn ▸ hlt, List.Subset.refl _⟩
        · exact ⟨hn ▸ (Json.size_lt_of_mem_inner hinner).trans hlt,
            fun _ => Json.mem_references_of_mem_inner hinner⟩
      rcases hown : Json.ownReference? members with _ | own
      · simp only [List.flatMap_eq_nil_iff]
        have hsub : ∀ m ∈ members, ∀ k ∈ m.2 :: m.2.inner, ∀ name ∈ k.references,
            name ∈ (Json.obj members).references := fun m hm k hk name hname =>
          Json.mem_references_of_mem_members hm ((hpart m hm k hk).2 hname)
        refine forall₂_congr fun m hm => agree_keywordCheck hm (fun m' hm' k hk w hw => ?_)
          (fun m' hm' hplace k hk => ?_) a b
        · exact ih _ (hpart m' hm' k hk).1
            (fun name hname u hu => hbelow name (hsub m' hm' k hk name hname) u (hu.trans hw))
            (fun name hname => hbelow name
              (hsub m' hm' k hk name (Json.metReferences_subset k hname)) w hw) rfl
        · refine ih _ (hpart m' hm' k hk).1
            (fun name hname => hbelow name (hsub m' hm' k hk name hname))
            (fun name hname => hmet name ?_) rfl
          rw [Json.metReferences, hown]
          refine List.mem_flatMap.mpr ⟨m', hm', ?_⟩
          rw [if_pos hplace]
          exact (hpart m' hm' k hk).2 (Json.metReferences_subset k hname)
      · exact hmet own (by rw [Json.metReferences, hown]; exact List.mem_singleton_self own) a b
    | bool t => cases t <;> intro a b <;> simp [Part.of, Part.check, accept]
    | null | num | str | arr =>
      intro a b
      simp [Part.of, Part.check, accept]

/-- **Without references, any two readings of a schema agree.** -/
theorem agree_of_references_eq_nil {schema : Json} (h : schema.references = []) :
    Agree (Part.of refs schema).check (Part.of refs' schema).check v := by
  refine agree_of (fun name hname => ?_) (fun name hname => ?_)
  · rw [h] at hname
    cases hname
  · have hmem := Json.metReferences_subset schema hname
    rw [h] at hmem
    cases hmem

/-- What a reference to a part means. -/
theorem reference_of_referent? {root schema : Json} {name : String}
    (h : referent? root name = some schema) (depth : ℕ) :
    reference root (depth + 1) name = (Part.of (reference root depth) schema).check := by
  rw [reference, h]

end Schema

end CallChain
