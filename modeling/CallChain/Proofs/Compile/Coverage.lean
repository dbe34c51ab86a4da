import CallChain.Proofs.Compile.Stages
import CallChain.Proofs.Plan.Contract
import CallChain.Proofs.Tool.Run
import CallChain.Proofs.Tool.Values

/-!
# Required parameters have values

Planning checks that every required parameter of a later call has an override, a mapping or a field
of the tool's input. At run time the first two always bring a value; a field of the input does so
only if the input has it. The input has to have the fields that the first call requires, so one gap
remains (`CallChain.Tool.Gap`): a later call may count on a field that the first call declares as
optional, and the input may leave it out.

`CallChain.Tool.has_value_iff_not_gap` says that this is the only gap: in every run of a compiled
tool a required parameter of a call that is reached has a value, except in the gap, where it has
none.
-/

set_option autoImplicit false

namespace CallChain

/-! ### Steps of a compiled tool -/

/-- **What is known of a later step**: the targets of its mappings start with names, and each
required parameter has an override, a mapping or a free parameter of the first step with its
name. -/
structure ToolStep.Covered (s first : ToolStep) : Prop where
  heads : ∀ m ∈ s.mappings, (m.target.headField?).isSome = true
  satisfied : ∀ p ∈ s.parameters, p.isRequired = true →
    (∃ m ∈ s.mappings, m.target.headField? = some p.name) ∨ s.overrides.has p.name = true ∨
      ∃ q ∈ first.parameters, first.overrides.has q.name = false ∧ q.name = p.name

/-- **The steps of a compiled tool**: the first has no mappings, the later ones are covered, and an
accepted input is an object that has what the first step requires and does not fix. -/
theorem Graph.exists_covered_steps {g : Graph} {definition? : String → Option ApiDefinition}
    {id : Uuid} {t : Tool} (h : g.compileWith definition? id = .ok t) :
    ∃ first later, t.steps = first :: later ∧ first.mappings = [] ∧
      (∀ s ∈ later, s.Covered first) ∧
      ∀ input, Schema.conforms t.inputSchema input = .ok () →
        ∀ p ∈ first.parameters, first.overrides.has p.name = false → p.isRequired = true →
          (input.member? p.name).isSome = true := by
  obtain ⟨a, rest, node, api, later, -, -, hlater, hinput, hsteps⟩ :=
    exists_plan_of_compileWith_eq_ok h
  refine ⟨_, _, hsteps, rfl, ?_, ?_⟩
  · intro s hs
    obtain ⟨step, hstep, rfl⟩ := List.mem_map.mp hs
    obtain ⟨previous, b, node', api', mappings, -, hmappings, hsatisfied, rfl⟩ :=
      exists_of_mem_planFrom hlater hstep
    refine ⟨isSome_headField?_of_resolveMappings hmappings, fun p hp hrequired => ?_⟩
    rcases checkSatisfied_eq_ok_iff.mp hsatisfied p hp hrequired with hmapped | hfixed | hfield
    · exact Or.inl hmapped
    · exact Or.inr (Or.inl hfixed)
    · obtain ⟨q, hq, hname⟩ := List.mem_map.mp hfield
      obtain ⟨hmem, hfree⟩ := mem_freeParameters_iff.mp hq
      exact Or.inr (Or.inr ⟨q, hmem, hfree, hname⟩)
  · intro input hconforms p hp hfree hrequired
    rw [hinput] at hconforms
    obtain ⟨members, rfl, hhas⟩ := Plan.exists_members_of_conforms hconforms
    exact hhas p (mem_freeParameters_iff.mpr ⟨hp, hfree⟩) hrequired

/-! ### The gap -/

namespace Tool

/-- **The gap in the check of required parameters**: a later call neither fixes the parameter nor
has a mapping to it; the first call takes a parameter of this name from the input, and nowhere
requires it; and the input leaves it out. -/
structure Gap (t : Tool) (input : Json) (step : ℕ) (s : ToolStep) (name : String) : Prop where
  later : 1 ≤ step
  not_fixed : s.overrides.has name = false
  not_mapped : ∀ m ∈ s.mappings, m.target.headField? ≠ some name
  optional : ∃ first, t.steps.head? = some first ∧ first.overrides.has name = false ∧
    (∃ q ∈ first.parameters, q.name = name) ∧
    ∀ q ∈ first.parameters, q.name = name → q.isRequired = false
  omitted : input.member? name = none

variable {t : Tool} {input : Json} {step : ℕ} {c first : ToolStep} {later : List ToolStep}
  {previous? : Option Json} {values : Members} {p : Parameter}

/-- In the gap there is no value. -/
theorem Gap.not_has_value {name : String} (h : t.Gap input step c name)
    (hheads : ∀ m ∈ c.mappings, (m.target.headField?).isSome = true)
    (hvalues : c.values step input previous? = .ok values) : ¬Entries.has values name = true := by
  rw [ToolStep.has_values_iff hheads hvalues]
  rintro (hfixed | ⟨-, hmember⟩ | ⟨-, m, hm, hhead⟩)
  · rw [h.not_fixed] at hfixed
    cases hfixed
  · rw [h.omitted] at hmember
    cases hmember
  · exact h.not_mapped m hm hhead

/-- A required parameter of a later call without a value is in the gap: the check has counted on the
input, and what the first call requires, an accepted input has. -/
theorem gap_of_not_has_value (hsteps : t.steps = first :: later) (hcovered : c.Covered first)
    (hbrought : ∀ q ∈ first.parameters, first.overrides.has q.name = false → q.isRequired = true →
      (input.member? q.name).isSome = true)
    (hstep : 1 ≤ step) (hprevious : previous?.isSome = true)
    (hvalues : c.values step input previous? = .ok values) (hp : p ∈ c.parameters)
    (hrequired : p.isRequired = true) (hnovalue : ¬Entries.has values p.name = true) :
    t.Gap input step c p.name := by
  rw [ToolStep.has_values_iff hcovered.heads hvalues] at hnovalue
  simp only [not_or, not_and, Bool.not_eq_true, Option.isSome_eq_false_iff] at hnovalue
  obtain ⟨hnotfixed, homitted, hnotmapped⟩ := hnovalue
  have hnone : input.member? p.name = none := Option.isNone_iff_eq_none.mp (homitted ⟨p, hp, rfl⟩)
  rcases hcovered.satisfied p hp hrequired with ⟨m, hm, hhead⟩ | hfixed | ⟨q, hq, hfree, hname⟩
  · exact absurd ⟨m, hm, hhead⟩ (hnotmapped hprevious)
  · rw [hnotfixed] at hfixed
    cases hfixed
  · refine ⟨hstep, hnotfixed, fun m hm hhead => hnotmapped hprevious ⟨m, hm, hhead⟩,
      ⟨first, by rw [hsteps]; rfl, hname ▸ hfree, ⟨q, hq, hname⟩, fun r hr hrname => ?_⟩, hnone⟩
    -- If a declaration of this name were required, the input would have the field.
    by_contra hr'
    have hhas := hbrought r hr (by rw [hrname, ← hname]; exact hfree) (by simpa using hr')
    rw [hrname, hnone] at hhas
    cases hhas

/-- **A required parameter of a call that is reached has a value**, except in the gap: in every run
of a compiled tool, when all mappings of the call can be read and written. -/
theorem has_value_iff_not_gap {g : Graph} {definition? : String → Option ApiDefinition} {id : Uuid}
    (h : g.compileWith definition? id = .ok t) {σ : Type} {call : Call (StateM σ)} {s₀ s : σ}
    (hreaches : t.Reaches call input s₀ step previous? s) (hstep : t.steps[step]? = some c)
    (hvalues : c.values step input previous? = .ok values) (hp : p ∈ c.parameters)
    (hrequired : p.isRequired = true) :
    Entries.has values p.name = true ↔ ¬t.Gap input step c p.name := by
  obtain ⟨first, later, hsteps, hnone, hcovered, hinput⟩ := Graph.exists_covered_steps h
  have hbrought := hinput input hreaches.conforms
  rcases step with _ | step
  · -- What the first call requires and does not fix, the input has.
    obtain rfl : first = c := by simpa [hsteps] using hstep
    have hnogap : ¬t.Gap input 0 first p.name := fun hgap => absurd hgap.later (by omega)
    rw [ToolStep.has_values_iff (by simp [hnone]) hvalues, iff_true_right hnogap]
    rcases hfixed : first.overrides.has p.name with _ | _
    · exact Or.inr (Or.inl ⟨⟨p, hp, rfl⟩, hbrought p hp hfixed hrequired⟩)
    · exact Or.inl rfl
  · have hmem : c ∈ later := by
      rw [hsteps, List.getElem?_cons_succ] at hstep
      exact List.mem_of_getElem? hstep
    have hprevious : previous?.isSome = true := hreaches.isSome_previous?_iff.mpr (by omega)
    constructor
    · intro hhas hgap
      exact hgap.not_has_value (hcovered c hmem).heads hvalues hhas
    · intro hnogap
      by_contra hnovalue
      exact hnogap (gap_of_not_has_value hsteps (hcovered c hmem) hbrought (by omega) hprevious
        hvalues hp hrequired hnovalue)

/-- Of the two required parameters of the second call one is mapped and has a value; the other one
is in the gap when the input is empty. -/
theorem pair_has_value_iff_not_gap :
    Pair.tool.Reaches Pair.caller (.obj []) 0 1 (some (.obj [("id", .str "a")])) 1 ∧
      (Entries.has [("id", Json.str "a")] "id" = true ↔
        ¬Pair.tool.Gap (.obj []) 1 Pair.detail "id") ∧
      (Entries.has [("id", Json.str "a")] "kind" = true ↔
        ¬Pair.tool.Gap (.obj []) 1 Pair.detail "kind") := by
  have hinput : Schema.conforms Pair.tool.inputSchema (.obj []) = .ok () :=
    Schema.isConforming_iff.mp (by decide +kernel)
  have hrequest : Pair.list.request 0 (.obj []) none = .ok ⟨.get, "/items", [], none⟩ := by
    with_unfolding_all rfl
  have hcall : (Pair.caller ⟨.get, "/items", [], none⟩).run 0 =
      (.ok ⟨200, .obj [("id", .str "a")]⟩, 1) := rfl
  have hreaches : Pair.tool.Reaches Pair.caller (.obj []) 0 1 (some (.obj [("id", .str "a")])) 1 :=
    .next (.start hinput) rfl hrequest hcall rfl
  have hvalues : Pair.detail.values 1 (.obj []) (some (.obj [("id", .str "a")])) =
      .ok [("id", .str "a")] := rfl
  exact ⟨hreaches,
    has_value_iff_not_gap Pair.compileWith_eq hreaches rfl hvalues
      (p := ⟨"id", .path, true, Pair.text⟩) List.mem_cons_self rfl,
    has_value_iff_not_gap Pair.compileWith_eq hreaches rfl hvalues
      (p := ⟨"kind", .query, true, Pair.text⟩) (List.mem_cons_of_mem _ List.mem_cons_self) rfl⟩

end Tool

end CallChain
