import CallChain.Proofs.Plan.Contract
import CallChain.Proofs.Schema.Resolution
import CallChain.Proofs.Compile.Stages

/-!
# Which inputs a plan accepts

An input is usable when it is an object that has what the first step requires and does not fix, and
when what it has under the names of free parameters conforms to their schemas
(`CallChain.PlanStep.Usable`). Where these names are distinct, the schema of the input accepts
exactly the usable inputs.

A list of parameters may have one name twice, in two places of a request. Then the list and the
schema part ways: of several parameters of a name only the last is a property of the schema, and
a name that is required twice is listed twice under `required`, which makes the schema none, so that
no input is accepted. What is accepted in all cases is said by
`CallChain.Plan.conforms_input_iff`.
-/

set_option autoImplicit false

namespace CallChain

open Schema

namespace PlanStep

/-- The parameters that a first step leaves open. -/
def free (first : PlanStep) : List Parameter :=
  Graph.freeParameters first.api first.overrides

/-- The names of the required ones among them, in declared order. -/
def requiredNames (first : PlanStep) : List String :=
  (first.free.filter Parameter.isRequired).map (·.name)

/-- The last free parameter of a name. -/
def lastFree? (first : PlanStep) (name : String) : Option Parameter :=
  first.free.reverse.find? (·.name == name)

/-- **A usable input**: an object with all required members, of which each free parameter finds one
that conforms to its schema, or none. -/
def Usable (first : PlanStep) (input : Json) : Prop :=
  ∃ members, input = .obj members ∧
    (∀ p ∈ first.free, p.isRequired = true → Entries.has members p.name = true) ∧
    ∀ p ∈ first.free, ∀ w, Entries.get? members p.name = some w → conforms p.schema w = .ok ()

/-- **The schemas of the free parameters stand on their own**: each is a schema, and refers to
nothing. -/
def SelfContained (first : PlanStep) : Prop :=
  ∀ p ∈ first.free, IsSchema (spellNullable p.schema) ∧ p.schema.references = []

variable {first : PlanStep} {name : String} {p : Parameter}

theorem mem_free_of_lastFree? (h : first.lastFree? name = some p) :
    p ∈ first.free ∧ p.name = name :=
  ⟨List.mem_reverse.mp (List.mem_of_find?_eq_some h), by simpa using List.find?_some h⟩

/-- Among distinct names the last of a name is the only one. -/
theorem lastFree?_eq_some_iff (hnodup : (first.free.map (·.name)).Nodup) :
    first.lastFree? name = some p ↔ p ∈ first.free ∧ p.name = name := by
  refine ⟨mem_free_of_lastFree?, ?_⟩
  rintro ⟨hp, rfl⟩
  rcases hlast : first.lastFree? p.name with _ | q
  · have hnone := List.find?_eq_none.mp hlast p (List.mem_reverse.mpr hp)
    simp at hnone
  · obtain ⟨hq, hname⟩ := mem_free_of_lastFree? hlast
    rw [List.inj_on_of_nodup_map hnodup hq hp hname]

end PlanStep

namespace Plan

variable {first : PlanStep}

/-! ### The schema of an input, spelled out -/

/-- The properties of the schema, spelled out. -/
def inputProperties (first : PlanStep) : Members :=
  (Entries.ofPairs (first.free.map fun p => (p.name, p.schema))).map
    fun m => (m.1, spellNullable m.2)

/-- Its keywords, spelled out. -/
def spelledInput (first : PlanStep) : Members :=
  (inputMembers first).map fun m => (m.1, spellNullable m.2)

/-- **The schema of an input, spelled out.** -/
theorem spellNullable_inputSchema (first : PlanStep) :
    spellNullable (inputSchema first) = .obj (spelledInput first) := by
  rw [inputSchema_eq, spellNullable_obj (get?_inputMembers_eq_none (by decide)), spelledInput]

/-- There are no keywords but three. -/
theorem get?_spelledInput_eq_none {name : String} (h : name ∉ ["properties", "required", "type"]) :
    Entries.get? (spelledInput first) name = none := by
  rw [spelledInput, get?_map, get?_inputMembers_eq_none h, Option.map_none]

/-- Its keywords, with the names that are required. -/
theorem inputMembers_eq (first : PlanStep) : inputMembers first =
    ("properties", .obj (Entries.ofPairs (first.free.map fun p => (p.name, p.schema)))) ::
      (if (first.requiredNames.map Json.str).isEmpty then []
        else [("required", .arr (first.requiredNames.map .str))]) ++ [("type", .str "object")] := by
  have hrequired : first.requiredNames.map Json.str =
      (first.free.filter Parameter.isRequired).map fun p => .str p.name := by
    rw [PlanStep.requiredNames, List.map_map]
    rfl
  rw [hrequired]
  rfl

theorem get?_inputProperties (first : PlanStep) (name : String) :
    Entries.get? (inputProperties first) name =
      (first.lastFree? name).map fun p => spellNullable p.schema := by
  rw [inputProperties, get?_map, Entries.get?_ofPairs, ← List.map_reverse, List.find?_map,
    Option.map_map, Option.map_map]
  rfl

theorem ordered_inputProperties (first : PlanStep) : Entries.Ordered (inputProperties first) := by
  rw [Entries.Ordered, inputProperties, List.map_map]
  exact Entries.ordered_ofPairs _

/-- The properties are the last free parameters of their names. -/
theorem mem_inputProperties_iff {m : String × Json} :
    m ∈ inputProperties first ↔
      ∃ p, first.lastFree? m.1 = some p ∧ spellNullable p.schema = m.2 := by
  have hget : m ∈ inputProperties first ↔
      Entries.get? (inputProperties first) m.1 = some m.2 :=
    ⟨Entries.get?_eq_some_of_mem (ordered_inputProperties first), Entries.mem_of_get?_eq_some⟩
  rw [hget, get?_inputProperties, Option.map_eq_some_iff]

/-- Schemas by name are left alone. -/
theorem spellNullable_properties (h : first.SelfContained) :
    spellNullable (.obj (Entries.ofPairs (first.free.map fun p => (p.name, p.schema)))) =
      .obj (inputProperties first) := by
  rw [spellNullable_obj_eq, spelled]
  refine congrArg Json.obj (widen_eq_self fun j hj => ?_)
  obtain ⟨p, hp, rfl⟩ := mem_inputProperties_iff.mp (Entries.mem_of_get?_eq_some hj)
  exact (h p (PlanStep.mem_free_of_lastFree? hp).1).1

/-- What holds of each keyword. -/
theorem forall_mem_spelledInput (h : first.SelfContained) {P : String × Json → Prop} :
    (∀ m ∈ spelledInput first, P m) ↔ P ("properties", .obj (inputProperties first)) ∧
      (first.requiredNames ≠ [] → P ("required", .arr (first.requiredNames.map .str))) ∧
      P ("type", .str "object") := by
  have htype : spellNullable (.str "object") = .str "object" := by simp [spellNullable]
  rw [spelledInput, inputMembers_eq]
  by_cases hnames : first.requiredNames = []
  · simp [hnames, htype, spellNullable_properties h]
  · simp [hnames, htype, spellNullable_properties h, spellNullable_arr_map_str]

theorem ordered_spelledInput (first : PlanStep) : Entries.Ordered (spelledInput first) := by
  rw [spelledInput, inputMembers_eq]
  split
  · have hordered : ["properties", "type"].Pairwise (· < ·) := by decide
    exact hordered
  · have hordered : ["properties", "required", "type"].Pairwise (· < ·) := by decide
    exact hordered

/-! ### When it is a schema -/

/-- **The schema of an input is one unless a name is required twice.** -/
theorem isSchema_spelledInput_iff (h : first.SelfContained) :
    IsSchema (.obj (spelledInput first)) ↔ first.requiredNames.Nodup := by
  have hproperties : Entries.get? metaForms "properties" = some schemaMap := by
    with_unfolding_all rfl
  have hrequired : Entries.get? metaForms "required" =
      some (refTo "#/definitions/stringArray") := by
    with_unfolding_all rfl
  have hschemas : Fits schemaMap (.obj (inputProperties first)) := by
    refine fits_schemaMap_iff.mpr ⟨_, rfl, fun m hm => ?_⟩
    obtain ⟨p, hp, hm⟩ := mem_inputProperties_iff.mp hm
    exact hm ▸ (h p (PlanStep.mem_free_of_lastFree? hp).1).1
  -- An empty list of names is not written down, and has no repeats.
  have hnames : (first.requiredNames ≠ [] → first.requiredNames.Nodup) ↔
      first.requiredNames.Nodup := by
    refine ⟨fun hall => ?_, fun hnodup _ => hnodup⟩
    by_cases hnil : first.requiredNames = []
    · rw [hnil]
      exact List.nodup_nil
    · exact hall hnil
  rw [isSchema_obj_iff_of_ordered (ordered_spelledInput first), forall_mem_spelledInput h]
  simp only [hproperties, hrequired, Option.some.injEq, forall_eq', hschemas, true_and,
    fits_stringArray_iff, hnames]
  exact and_iff_left fun form hform => fits_type_of_mem (by decide) hform

/-! ### What it asks for -/

/-- The required names are there when each required free parameter has its member. -/
theorem requiredNames_iff {refs : String → Check} {members : Members} {place : Pointer} :
    (first.requiredNames ≠ [] →
      requiredCheck (Part.of refs (.arr (first.requiredNames.map .str))) (.obj members) place =
        []) ↔
      ∀ p ∈ first.free, p.isRequired = true → Entries.has members p.name = true := by
  have hmem : ∀ name, Json.str name ∈ first.requiredNames.map Json.str ↔
      ∃ p ∈ first.free, p.isRequired = true ∧ p.name = name := by
    intro name
    simp [PlanStep.requiredNames, and_assoc]
  rw [requiredCheck_eq_nil_iff]
  constructor
  · intro h p hp hrequired
    have hname := (hmem p.name).mpr ⟨p, hp, hrequired, rfl⟩
    exact h (by simpa using List.ne_nil_of_mem hname) p.name hname
  · intro h _ name hname
    obtain ⟨p, hp, hrequired, rfl⟩ := (hmem name).mp hname
    exact h p hp hrequired

/-- Each property is as its schema says. -/
theorem inputProperties_iff (h : first.SelfContained) {refs : String → Check} {members : Members}
    {place : Pointer} :
    propertiesCheck (Part.ofMembers refs (spelledInput first))
        (Part.of refs (.obj (inputProperties first))) (.obj members) place = [] ↔
      ∀ name p w, first.lastFree? name = some p → Entries.get? members name = some w →
        conforms p.schema w = .ok () := by
  have hextra : extraTakesOver (Part.ofMembers refs (spelledInput first)) = false := by
    rw [extraTakesOver, part?_ofMembers, get?_spelledInput_eq_none (by decide)]
    rfl
  rw [propertiesCheck_eq_nil_iff hextra]
  constructor
  · intro hall name p w hp hw
    obtain ⟨hschema, hrefs⟩ := h p (PlanStep.mem_free_of_lastFree? hp).1
    have hmem : (name, spellNullable p.schema) ∈ inputProperties first :=
      mem_inputProperties_iff.mpr ⟨p, hp, rfl⟩
    exact (check_spelled_eq_nil_iff hschema (references_spellNullable_eq_nil hrefs)).mp
      (hall _ hmem w hw)
  · intro hall m hm w hw
    obtain ⟨p, hp, hm⟩ := mem_inputProperties_iff.mp hm
    obtain ⟨hschema, hrefs⟩ := h p (PlanStep.mem_free_of_lastFree? hp).1
    rw [← hm]
    exact (check_spelled_eq_nil_iff hschema (references_spellNullable_eq_nil hrefs)).mpr
      (hall m.1 p w hp hw)

/-- **What the schema of an input asks for**: an object, the members that are required, and that
each property is as its schema says. -/
theorem violations_spelledInput_eq_nil_iff (h : first.SelfContained) {input : Json} :
    violations (.obj (spelledInput first)) input = [] ↔ ∃ members, input = .obj members ∧
      (∀ p ∈ first.free, p.isRequired = true → Entries.has members p.name = true) ∧
      ∀ name p w, first.lastFree? name = some p → Entries.get? members name = some w →
        conforms p.schema w = .ok () := by
  rw [violations]
  generalize reference _ _ = refs
  have hkeywords : (Part.of refs (.obj (spelledInput first))).check input [] = [] ↔
      propertiesCheck (Part.ofMembers refs (spelledInput first))
          (Part.of refs (.obj (inputProperties first))) input [] = [] ∧
        (first.requiredNames ≠ [] →
          requiredCheck (Part.of refs (.arr (first.requiredNames.map .str))) input [] = []) ∧
        typeCheck (Part.of refs (.str "object")) input [] = [] := by
    rw [check_of_obj_eq_nil_iff (ownReference?_eq_none (get?_spelledInput_eq_none (by decide))),
      forall_mem_spelledInput h]
    exact Iff.rfl
  rw [hkeywords, typeCheck_eq_nil_iff, hasType_object_iff]
  constructor
  · rintro ⟨hproperties, hrequired, members, rfl⟩
    exact ⟨members, rfl, requiredNames_iff.mp hrequired, (inputProperties_iff h).mp hproperties⟩
  · rintro ⟨members, rfl, hrequired, hproperties⟩
    exact ⟨(inputProperties_iff h).mpr hproperties, requiredNames_iff.mpr hrequired, members, rfl⟩

/-! ### Usable inputs -/

/-- **Which inputs the schema accepts**: none if a name is required twice; else the objects that
have what is required, and have under the name of each free parameter what conforms to the schema of
the last one of the name. -/
theorem conforms_inputSchema_iff (h : first.SelfContained) {input : Json} :
    conforms (inputSchema first) input = .ok () ↔
      first.requiredNames.Nodup ∧ ∃ members, input = .obj members ∧
        (∀ p ∈ first.free, p.isRequired = true → Entries.has members p.name = true) ∧
        ∀ name p w, first.lastFree? name = some p → Entries.get? members name = some w →
          conforms p.schema w = .ok () := by
  rw [conforms_iff, spellNullable_inputSchema, isSchema_spelledInput_iff h,
    violations_spelledInput_eq_nil_iff h]

/-- Among distinct names the last free parameters are all of them. -/
theorem conforms_inputSchema_iff_usable (h : first.SelfContained)
    (hnodup : (first.free.map (·.name)).Nodup) {input : Json} :
    conforms (inputSchema first) input = .ok () ↔ first.Usable input := by
  have hrequired : first.requiredNames.Nodup :=
    hnodup.sublist (List.filter_sublist.map _)
  rw [conforms_inputSchema_iff h, and_iff_right hrequired, PlanStep.Usable]
  refine exists_congr fun members => and_congr_right fun _ => and_congr_right fun _ => ?_
  constructor
  · exact fun hall p hp w hw =>
      hall p.name p w ((PlanStep.lastFree?_eq_some_iff hnodup).mpr ⟨hp, rfl⟩) hw
  · intro hall name p w hp hw
    obtain ⟨hfree, rfl⟩ := PlanStep.mem_free_of_lastFree? hp
    exact hall p hfree w hw

/-- **Which inputs a plan accepts.** Where the names of the free parameters of the first step are
distinct, exactly the usable ones. In all cases: none if a name is required twice; else the objects
with what is required, and with what the last parameter of each name asks for. -/
theorem conforms_input_iff {p : Plan} {input output : Json} {first : PlanStep}
    (hcontract : p.contract = .ok (input, output)) (hfirst : p.steps.head? = some first)
    (h : first.SelfContained) :
    ((first.free.map (·.name)).Nodup →
      ∀ x, conforms input x = .ok () ↔ first.Usable x) ∧
    ∀ x, conforms input x = .ok () ↔ first.requiredNames.Nodup ∧ ∃ members, x = .obj members ∧
      (∀ q ∈ first.free, q.isRequired = true → Entries.has members q.name = true) ∧
      ∀ name q w, first.lastFree? name = some q → Entries.get? members name = some w →
        conforms q.schema w = .ok () := by
  obtain ⟨first', last, hfirst', -, rfl, -⟩ := contract_eq_ok_iff.mp hcontract
  cases hfirst.symm.trans hfirst'
  exact ⟨fun hnodup x => conforms_inputSchema_iff_usable h hnodup,
    fun x => conforms_inputSchema_iff h⟩

/-! ### One call -/

/-- The id that a call has in its path. -/
def idInPath : Parameter := ⟨"id", .path, true, Pair.text⟩

/-- The id once more, in the query. -/
def idInQuery : Parameter := ⟨"id", .query, true, Pair.text⟩

/-- A parameter that may be left out. -/
def kindInQuery : Parameter := ⟨"kind", .query, false, Pair.text⟩

/-- A call with an id in its path, and with one more parameter. -/
def showWith (p : Parameter) : ApiDefinition where
  id := "show"
  method := .get
  path := "/items/\x7bid\x7d"
  parameters := [idInPath, p]
  responses := [("200", Pair.text)]

/-- The step of the call. -/
def showStep (p : Parameter) : PlanStep := ⟨"show", showWith p, [], []⟩

/-- The plan of the call. -/
def showPlan (p : Parameter) : Plan := ⟨"one", "One", none, [showStep p]⟩

/-- The graph of the call. -/
def showGraph : Graph where
  id := "one"
  name := "One"
  nodes := [⟨"show", "show", []⟩]

variable {p : Parameter}

theorem mem_free_showStep {q : Parameter} (hq : q ∈ (showStep p).free) : q = idInPath ∨ q = p := by
  simpa [showStep, showWith] using (List.mem_filter.mp hq).1

theorem conforms_text : conforms Pair.text (.str "a") = .ok () :=
  isConforming_iff.mp (by decide +kernel)

theorem selfContained_showStep (hp : p.schema = Pair.text) : (showStep p).SelfContained := by
  have htext : IsSchema (spellNullable Pair.text) ∧ Pair.text.references = [] :=
    ⟨(conforms_iff.mp conforms_text).1, rfl⟩
  intro q hq
  rcases mem_free_showStep hq with rfl | rfl
  · exact htext
  · exact hp ▸ htext

/-- An id alone is usable where nothing else is required. -/
theorem usable_showStep (hp : p.schema = Pair.text) (hname : p.isRequired = true → p.name = "id") :
    (showStep p).Usable (.obj [("id", .str "a")]) := by
  refine ⟨_, rfl, fun q hq hrequired => ?_, fun q hq w hw => ?_⟩
  · rcases mem_free_showStep hq with rfl | rfl
    · rfl
    · rw [hname hrequired]
      rfl
  · have hschema : q.schema = Pair.text := by
      rcases mem_free_showStep hq with rfl | rfl
      · rfl
      · exact hp
    obtain ⟨-, rfl⟩ := Prod.mk.inj (List.mem_singleton.mp (Entries.mem_of_get?_eq_some hw))
    exact hschema ▸ conforms_text

/-- An id is accepted, and what has no id is not. -/
theorem conforms_input_iff_kind :
    (showPlan kindInQuery).contract = .ok (inputSchema (showStep kindInQuery), Pair.text) ∧
      conforms (inputSchema (showStep kindInQuery)) (.obj [("id", .str "a")]) = .ok () ∧
      ¬conforms (inputSchema (showStep kindInQuery)) (.obj [("kind", .str "a")]) = .ok () := by
  have hcontract : (showPlan kindInQuery).contract =
      .ok (inputSchema (showStep kindInQuery), Pair.text) := by
    with_unfolding_all rfl
  have hnodup : ["id", "kind"].Nodup := by decide
  obtain ⟨husable, -⟩ := conforms_input_iff hcontract rfl (selfContained_showStep rfl)
  refine ⟨hcontract, (husable hnodup _).mpr (usable_showStep rfl nofun), fun h => ?_⟩
  obtain ⟨members, hmembers, hrequired, -⟩ := (husable hnodup _).mp h
  cases hmembers
  exact absurd (hrequired idInPath List.mem_cons_self rfl) (by decide)

/-- **No input is accepted where a name is required twice**, not even a usable one. -/
theorem usable_not_conforms :
    showGraph.plan (fun _ => some (showWith idInQuery)) ["show"] = .ok (showPlan idInQuery) ∧
      (showPlan idInQuery).contract = .ok (inputSchema (showStep idInQuery), Pair.text) ∧
      (showStep idInQuery).SelfContained ∧
      (showStep idInQuery).Usable (.obj [("id", .str "a")]) ∧
      ¬conforms (inputSchema (showStep idInQuery)) (.obj [("id", .str "a")]) = .ok () := by
  refine ⟨?_, ?_, selfContained_showStep rfl, usable_showStep rfl fun _ => rfl, fun h => ?_⟩
  · with_unfolding_all rfl
  · with_unfolding_all rfl
  · have hnodup : ["id", "id"].Nodup :=
      ((conforms_inputSchema_iff (selfContained_showStep rfl)).mp h).1
    exact absurd hnodup (by decide)

end Plan

end CallChain
