import CallChain.Plan.Contract
import CallChain.Proofs.Schema.Keywords

/-!
# What an accepted input brings

The schema of the input of a plan asks for an object with the required ones among the free
parameters of the first step. An input that conforms to it is an object and has them
(`CallChain.Plan.exists_members_of_conforms`). The properties that the schema lists are all the free
parameters of the first step (`CallChain.Plan.isSome_property_inputSchema_iff`), but an input may
have other members besides.
-/

set_option autoImplicit false

namespace CallChain

namespace Plan

open Schema

/-- The members of the schema of an input. -/
def inputMembers (first : PlanStep) : Members :=
  let free := Graph.freeParameters first.api first.overrides
  let required := (free.filter Parameter.isRequired).map (fun p => Json.str p.name)
  ("properties", .obj (Entries.ofPairs (free.map (fun p => (p.name, p.schema))))) ::
    (if required.isEmpty then [] else [("required", .arr required)]) ++ [("type", .str "object")]

theorem inputSchema_eq (first : PlanStep) : inputSchema first = .obj (inputMembers first) := rfl

/-- There are no keywords but three. -/
theorem get?_inputMembers_eq_none {first : PlanStep} {name : String}
    (h : name ∉ ["properties", "required", "type"]) :
    Entries.get? (inputMembers first) name = none := by
  simp only [List.mem_cons, List.not_mem_nil, or_false, not_or] at h
  obtain ⟨hproperties, hrequired, htype⟩ := h
  rw [inputMembers]
  split <;> simp [Entries.get?, Ne.symm hproperties, Ne.symm hrequired, Ne.symm htype]

/-- **The properties of the schema are the free parameters** of the first step. -/
theorem isSome_property_inputSchema_iff {first : PlanStep} {name : String} :
    (((inputSchema first).member? "properties").bind (·.member? name)).isSome = true ↔
      ∃ p ∈ Graph.freeParameters first.api first.overrides, p.name = name := by
  have hproperties : (((inputSchema first).member? "properties").bind (·.member? name)).isSome =
      Entries.has (Entries.ofPairs ((Graph.freeParameters first.api first.overrides).map
        fun p => (p.name, p.schema))) name := rfl
  have hempty : Entries.has ([] : Members) name = false := rfl
  rw [hproperties, Entries.ofPairs, Entries.has_foldl_insert_iff, hempty]
  simp only [Bool.false_eq_true, or_false, List.mem_map, exists_exists_and_eq_and]

theorem type_mem_inputMembers (first : PlanStep) :
    ("type", Json.str "object") ∈ inputMembers first :=
  List.mem_append_right _ (List.mem_singleton_self _)

/-- The required ones among the free parameters are listed as required. -/
theorem exists_required_mem_inputMembers {first : PlanStep} {p : Parameter}
    (hp : p ∈ Graph.freeParameters first.api first.overrides) (hrequired : p.isRequired = true) :
    ∃ names : List String, ("required", Json.arr (names.map .str)) ∈ inputMembers first ∧
      p.name ∈ names := by
  have hmem : p ∈ (Graph.freeParameters first.api first.overrides).filter Parameter.isRequired :=
    List.mem_filter.mpr ⟨hp, hrequired⟩
  refine ⟨_, ?_, List.mem_map_of_mem (f := (·.name)) hmem⟩
  refine List.mem_append_left _ (List.mem_cons_of_mem _ ?_)
  rw [if_neg (by simpa using List.ne_nil_of_mem hmem), List.map_map]
  exact List.mem_singleton_self _

/-- **An accepted input is an object, and it has what the first step requires** and does not fix. -/
theorem exists_members_of_conforms {first : PlanStep} {input : Json}
    (h : conforms (inputSchema first) input = .ok ()) :
    ∃ members, input = .obj members ∧
      ∀ p ∈ Graph.freeParameters first.api first.overrides, p.isRequired = true →
        Entries.has members p.name = true := by
  obtain ⟨-, hviolations⟩ := conforms_eq_ok_iff.mp h
  rw [inputSchema_eq, spellNullable_obj (get?_inputMembers_eq_none (by decide))] at hviolations
  have hrefs : Entries.get? ((inputMembers first).map fun m => (m.1, spellNullable m.2)) "$ref" =
      none := by
    rw [get?_map, get?_inputMembers_eq_none (by decide)]
    rfl
  have hcontent : ∀ {keyword : String} {j : Json}, (keyword, j) ∈ inputMembers first →
      ∃ refs parts, keywordCheck parts keyword (Part.of refs (spellNullable j)) input [] = [] := by
    intro keyword j hmem
    obtain ⟨refs, hcheck⟩ := keywordCheck_eq_nil hrefs hviolations
      (List.mem_map_of_mem (f := fun m => (m.1, spellNullable m.2)) hmem)
    exact ⟨refs, _, hcheck⟩
  obtain ⟨refs, parts, hkeyword⟩ := hcontent (type_mem_inputMembers first)
  have htype : typeCheck (Part.of refs (.str "object")) input [] = [] := hkeyword
  obtain ⟨members, rfl⟩ := hasType_object_iff.mp (typeCheck_eq_nil_iff.mp htype)
  refine ⟨members, rfl, fun p hp hrequired => ?_⟩
  obtain ⟨names, hmem, hname⟩ := exists_required_mem_inputMembers hp hrequired
  obtain ⟨refs', parts', hkeyword'⟩ := hcontent hmem
  have hnames : requiredCheck (Part.of refs' (.arr (names.map .str))) (.obj members) [] = [] :=
    spellNullable_arr_map_str names ▸ hkeyword'
  exact requiredCheck_eq_nil_iff.mp hnames p.name (List.mem_map_of_mem hname)

end Plan

end CallChain
