import CallChain.Proofs.Tool.Origin
import CallChain.Proofs.Tool.Paths

/-!
# Paths of compiled tools

A step is planned only when every hole of its path template has the name of a path parameter. So in
a compiled tool the paths of requests are the templates with the values in them
(`CallChain.Tool.Compiled.path_laws`), provided that no parameter has a brace in its name: such a
name cannot be told from what stands around it.
-/

set_option autoImplicit false

namespace CallChain

open PathTemplate (Part parts Delimited)

/-- **A compiled tool**: compiled against definitions at hand, or against a catalog, in whatever
order the look-ups complete and with or without an enhancer. -/
inductive Tool.Compiled : Tool → Prop
  | directly {g : Graph} {definition? : String → Option ApiDefinition} {id : Uuid} {t : Tool} :
    g.compileWith definition? id = .ok t → Compiled t
  | fromCatalog {g : Graph} {config : CompilerConfig} {enhancer? : Option Enhancer}
      {lookup : Lookup} {completed : List String} {id : Uuid} {t : Tool} :
    g.compile config enhancer? lookup completed id = .ok t → Compiled t

/-- Other words leave the steps alone. -/
theorem Tool.steps_enhance (t : Tool) (e : Enhancer) : (t.enhance e).steps = t.steps := by
  rw [Tool.enhance]
  split
  · rfl
  · dsimp only
    split
    · rfl
    · rfl

namespace Graph

variable {g : Graph} {definition? : String → Option ApiDefinition} {id : Uuid} {t : Tool}
  {s : ToolStep}

/-- **The holes of a planned step are declared.** -/
theorem declaresHoles_of_looksUp {a : String} {node : Node} {api : ApiDefinition}
    (h : g.LooksUp definition? a node api) (mappings : List ParsedMapping) :
    (ToolStep.ofPlanStep (node.step api mappings)).DeclaresHoles := by
  have hjudges := judgesHoles_checkPlaceholders node api
  rw [h.placeholders_ok] at hjudges
  exact fun name hname => (hjudges name hname).declaresInPath

theorem declaresHoles_of_assemble {order : List String}
    (h : g.assemble definition? order id = .ok t) (hs : s ∈ t.steps) : s.DeclaresHoles := by
  rw [assemble] at h
  obtain ⟨plan, hplan, h⟩ := bind_eq_ok_iff.mp h
  obtain ⟨⟨input, output⟩, -, h⟩ := bind_eq_ok_iff.mp h
  cases h
  obtain ⟨steps, hsteps, rfl⟩ := plan_eq_ok_iff.mp (mapError_eq_ok_iff.mp hplan)
  obtain ⟨planned, hplanned, rfl⟩ := List.mem_map.mp hs
  obtain ⟨a, node, api, mappings, hlooks, -, rfl⟩ := exists_of_mem_planFrom_first hsteps hplanned
  exact declaresHoles_of_looksUp hlooks mappings

end Graph

namespace Tool.Compiled

variable {t : Tool} {s : ToolStep}

theorem declaresHoles (h : t.Compiled) (hs : s ∈ t.steps) : s.DeclaresHoles := by
  cases h with
  | directly h =>
    obtain ⟨order, -, h⟩ := bind_eq_ok_iff.mp h
    exact Graph.declaresHoles_of_assemble h hs
  | fromCatalog h =>
    obtain ⟨order, -, h⟩ := bind_eq_ok_iff.mp h
    obtain ⟨definitions, -, h⟩ := bind_eq_ok_iff.mp h
    obtain ⟨plain, hplain, h⟩ := bind_eq_ok_iff.mp h
    cases h
    refine Graph.declaresHoles_of_assemble hplain ?_
    split at hs
    · rwa [steps_enhance] at hs
    · exact hs

/-- **The paths of a compiled tool.** Let a step have no parameter with a brace in its name.

* Where a request is made its path is the template with the encoded text of a value in each hole,
  all holes at once. These are values of path parameters and they are there, no hole is left, and
  the slashes are those of the template outside of its holes.
* Two requests have different paths when the texts for a hole are different that is alone between
  slashes.
* When there are values, a request is made if and only if all required parameters are among them; so
  none fails for a hole that is left. -/
theorem path_laws (h : t.Compiled) (hs : s ∈ t.steps) (hnames : s.NamesPlain) :
    (∀ (step : ℕ) (input : Json) (previous? : Option Json) (request : Request),
      s.request step input previous? = .ok request →
        ∃ values, s.values step input previous? = .ok values ∧ s.Addresses values request) ∧
    (∀ (step step' : ℕ) (input input' : Json) (previous? previous?' : Option Json)
      (values values' : Members) (request request' : Request),
      s.values step input previous? = .ok values → s.request step input previous? = .ok request →
      s.values step' input' previous?' = .ok values' →
      s.request step' input' previous?' = .ok request' →
      ∀ (before after : List Part) (name : String),
        parts s.path.toList = before ++ .hole name :: after → Delimited before after →
        ToolStep.valueText values name ≠ ToolStep.valueText values' name →
        request.path ≠ request'.path) ∧
    ∀ (step : ℕ) (input : Json) (previous? : Option Json) (values : Members),
      s.values step input previous? = .ok values →
        ((∃ request, s.request step input previous? = .ok request) ↔
          ∀ p ∈ s.parameters, p.isRequired = true →
            (Entries.get? values p.name).getD .null ≠ .null) := by
  have hholes := h.declaresHoles hs
  refine ⟨fun step input previous? request hrequest => ?_, ?_, ?_⟩
  · exact ToolStep.addresses_of_request hnames hholes hrequest
  · intro step step' input input' previous? previous?' values values' request request' hvalues
      hrequest hvalues' hrequest' before after name hparts hsegment hne
    obtain ⟨_, hsame, haddresses⟩ := ToolStep.addresses_of_request hnames hholes hrequest
    cases hvalues.symm.trans hsame
    obtain ⟨_, hsame, haddresses'⟩ := ToolStep.addresses_of_request hnames hholes hrequest'
    cases hvalues'.symm.trans hsame
    exact haddresses.path_ne haddresses' hparts hsegment hne
  · exact fun step input previous? values hvalues =>
      ToolStep.exists_request_iff hnames hholes hvalues

end Tool.Compiled

/-! ### An id with delimiters -/

namespace Pair

theorem parts_detail : parts detail.path.toList = "/items/".toList.map .kept ++ [.hole "id"] := by
  with_unfolding_all rfl

theorem namesPlain_detail : detail.NamesPlain := by
  simp [ToolStep.NamesPlain, detail]

/-- The values of the second call, for an id that the first has answered. -/
def valuesFor (id : String) : Members := [("id", .str id), ("kind", .str "b")]

theorem values_detail (id : String) :
    detail.values 1 (.obj [("kind", .str "b")]) (some (.obj [("id", .str id)])) =
      .ok (valuesFor id) := by
  with_unfolding_all rfl

theorem present_valuesFor (id : String) : ∀ p ∈ detail.parameters, p.isRequired = true →
    (Entries.get? (valuesFor id) p.name).getD .null ≠ .null := by
  simp [detail, valuesFor, Entries.get?]

theorem pathText_delimiters :
    ToolStep.pathText (valuesFor "a/\x7bid\x7d") "id" = "a%2F%7Bid%7D".toList := by
  with_unfolding_all rfl

/-- An id with a slash and with the hole of its own name in it becomes one segment, and another id
another one. -/
theorem path_laws_detail : ∃ request request',
    detail.request 1 (.obj [("kind", .str "b")]) (some (.obj [("id", .str "a/\x7bid\x7d")])) =
      .ok request ∧
    detail.request 1 (.obj [("kind", .str "b")]) (some (.obj [("id", .str "a")])) = .ok request' ∧
    request.path = "/items/a%2F%7Bid%7D" ∧ request.path ≠ request'.path := by
  have hs : detail ∈ tool.steps := by simp [tool]
  obtain ⟨haddressed, hdifferent, hmade⟩ :=
    Tool.Compiled.path_laws (.directly compileWith_eq) hs namesPlain_detail
  have hslash := values_detail "a/\x7bid\x7d"
  have hplain := values_detail "a"
  obtain ⟨request, hrequest⟩ := (hmade _ _ _ _ hslash).mpr (present_valuesFor _)
  obtain ⟨request', hrequest'⟩ := (hmade _ _ _ _ hplain).mpr (present_valuesFor _)
  refine ⟨request, request', hrequest, hrequest', ?_, ?_⟩
  · obtain ⟨values, hvalues, haddresses⟩ := haddressed _ _ _ _ hrequest
    cases hslash.symm.trans hvalues
    apply String.toList_inj.mp
    rw [haddresses.path, parts_detail, PathTemplate.fill_append, PathTemplate.fill_map_kept,
      PathTemplate.fill_hole, pathText_delimiters]
    rfl
  · refine hdifferent _ _ _ _ _ _ _ _ _ _ hslash hrequest hplain hrequest' _ _ "id" parts_detail
      ⟨Or.inr rfl, Or.inl rfl⟩ ?_
    simp [ToolStep.valueText, valuesFor, Entries.get?, ToolStep.scalarText]

end Pair

end CallChain
