import CallChain.Proofs.Compile.Outcomes
import CallChain.Proofs.Tool.Name

/-!
# What compiled tools are called

The name of a tool is made from the name of the graph, or from the id of the graph when that gives
nothing, and an enhancer may put another one in its place. Each of the three is brought into the
form of names, and none of them is bound to have anything in it that a name can be made of.

So a compiled tool has a proper name if and only if one of them has
(`CallChain.Graph.nameForm_iff_of_compile`); a graph whose name and id are without ASCII letters and
digits becomes a tool without a name (`CallChain.Graph.unnamed_compile`). Apart from name and
description an enhancer changes nothing, and nothing at all if it fails or gives no usable name.
-/

set_option autoImplicit false

namespace CallChain

/-! ### Enhancers -/

/-- **A tool is renamed**: an enhancer is asked and answers, and the name in its answer is one that
a name can be made of. -/
def CompilerConfig.Renames (config : CompilerConfig) (enhancer? : Option Enhancer) (t : Tool) :
    Prop :=
  config.enhance = true ∧ ∃ enhancer answer, enhancer? = some enhancer ∧
    enhancer t.metadata t = .ok answer ∧ Nameable answer.name

/-- The effect of an enhancer, if one is asked. -/
def CompilerConfig.reword (config : CompilerConfig) (enhancer? : Option Enhancer) (t : Tool) :
    Tool :=
  match enhancer?, config.enhance with
  | some enhancer, true => t.enhance enhancer
  | _, _ => t

namespace Tool

variable {t : Tool} {enhancer : Enhancer}

theorem enhance_of_nameable {answer : Metadata} (hanswer : enhancer t.metadata t = .ok answer)
    (h : Nameable answer.name) :
    t.enhance enhancer = { t with
      name := toolName answer.name
      description := if Text.isBlankText answer.description then t.description
        else answer.description } := by
  have hname : (toolName answer.name).isEmpty = false := by
    rw [← Bool.not_eq_true, String.isEmpty_iff]
    exact fun hempty => toolName_eq_empty_iff.mp hempty h
  simp only [enhance, hanswer, hname, Bool.false_eq_true, if_false]

/-- **An enhancer that fails or gives no usable name changes nothing.** -/
theorem enhance_eq_self
    (h : ∀ answer, enhancer t.metadata t = .ok answer → ¬Nameable answer.name) :
    t.enhance enhancer = t := by
  rw [enhance]
  split
  · rfl
  · rename_i answer hanswer
    have hname : (toolName answer.name).isEmpty = true := by
      rw [String.isEmpty_iff]
      exact toolName_eq_empty_iff.mpr (h answer hanswer)
    exact if_pos hname

end Tool

namespace CompilerConfig

variable {config : CompilerConfig} {enhancer? : Option Enhancer} {t : Tool}

/-- A tool that is not renamed stays as it is. -/
theorem reword_eq_self (h : ¬config.Renames enhancer? t) : config.reword enhancer? t = t := by
  cases enhancer? with
  | none => rfl
  | some enhancer =>
    cases henhance : config.enhance with
    | false => simp only [reword, henhance]
    | true =>
      simp only [reword, henhance]
      exact Tool.enhance_eq_self fun answer hanswer hname =>
        h ⟨henhance, enhancer, answer, rfl, hanswer, hname⟩

/-- **A tool that is renamed has a proper name** and at most another description. -/
theorem Renames.exists_reword_eq (h : config.Renames enhancer? t) :
    ∃ name description, NameForm name ∧
      config.reword enhancer? t = { t with name := name, description := description } := by
  obtain ⟨henhance, enhancer, answer, rfl, hanswer, hname⟩ := h
  simp only [reword, henhance]
  exact ⟨_, _, nameForm_toolName_iff.mpr hname, Tool.enhance_of_nameable hanswer hname⟩

end CompilerConfig

/-! ### Compiled tools -/

namespace Graph

variable {g : Graph} {config : CompilerConfig} {enhancer? : Option Enhancer} {lookup : Lookup}
  {completed : List String} {id : Uuid} {t : Tool}

/-- A compilation with an enhancer is one without, followed by the effect of the enhancer. -/
theorem compile_eq_map :
    g.compile config enhancer? lookup completed id =
      (g.compile config none lookup completed id).map (config.reword enhancer?) := by
  rw [compile, compile]
  rcases g.order with _ | order
  · rfl
  · rcases fetch lookup completed with _ | definitions
    · rfl
    · simp only [Except.mapError, bind, Except.bind]
      rcases g.assemble (Entries.get? definitions) order id with _ | plain
      · rfl
      · rfl

/-- **Without an enhancer the name comes from the graph**: from its name, or else from its id. -/
theorem name_of_assemble {definition? : String → Option ApiDefinition} {order : List String}
    (h : g.assemble definition? order id = .ok t) :
    t.name = if (toolName g.name).isEmpty then toolName g.id else toolName g.name := by
  rw [assemble] at h
  obtain ⟨p, hplan, h⟩ := bind_eq_ok_iff.mp h
  obtain ⟨⟨input, output⟩, -, h⟩ := bind_eq_ok_iff.mp h
  obtain ⟨steps, -, rfl⟩ := plan_eq_ok_iff.mp (mapError_eq_ok_iff.mp hplan)
  cases h
  rfl

/-- The name that comes from a graph is proper if the graph has a name or an id that a name can be
made of; else there is none. -/
theorem nameForm_iff_of_assemble {definition? : String → Option ApiDefinition} {order : List String}
    (h : g.assemble definition? order id = .ok t) :
    (NameForm t.name ↔ Nameable g.name ∨ Nameable g.id) ∧ (¬NameForm t.name → t.name = "") := by
  rw [name_of_assemble h]
  split
  · rename_i hempty
    have hunnameable := toolName_eq_empty_iff.mp (String.isEmpty_iff.mp hempty)
    rw [nameForm_toolName_iff, toolName_eq_empty_iff]
    exact ⟨⟨Or.inr, fun h => h.resolve_left hunnameable⟩, fun hno => hno⟩
  · rename_i hne
    have hnameable : Nameable g.name := by
      by_contra hno
      exact hne (String.isEmpty_iff.mpr (toolName_eq_empty_iff.mpr hno))
    have hform := nameForm_toolName_iff.mpr hnameable
    exact ⟨⟨fun _ => Or.inl hnameable, fun _ => hform⟩, fun hno => absurd hform hno⟩

/-- **What compiled tools are called, and what an enhancer may change.** Let a compilation lead to a
tool. Without an enhancer, with whatever configuration and in whatever order the look-ups complete,
there is a tool too: one plain tool, but for its id.

* The two differ in name and description at most, and not at all unless an enhancer is asked,
  answers and gives a name with a letter or a digit.
* The name of the tool has the form of names if and only if the name of the graph has a letter or a
  digit, or its id has, or the plain tool was renamed. Else the name is empty. -/
theorem nameForm_iff_of_compile
    (hdone : Lookups.Reaches config.permits (.start g.apiIds) (.done completed))
    (h : g.compile config enhancer? lookup completed id = .ok t) :
    ∃ plain : Tool,
      (∀ (config' : CompilerConfig) (enhancer?' : Option Enhancer) (completed' : List String)
        (id' : Uuid), (config'.enhance = false ∨ enhancer?' = none) →
        Lookups.Reaches config'.permits (.start g.apiIds) (.done completed') →
        g.compile config' enhancer?' lookup completed' id' = .ok { plain with id := id' }) ∧
      t = { plain with name := t.name, description := t.description } ∧
      (¬config.Renames enhancer? plain → t = plain) ∧
      (NameForm t.name ↔
        Nameable g.name ∨ Nameable g.id ∨ config.Renames enhancer? plain) ∧
      (¬NameForm t.name → t.name = "") := by
  rw [compile_eq_map] at h
  obtain ⟨plain, hplain, rfl⟩ := except_map_eq_ok_iff.mp h
  have hstages := hplain
  rw [compile_of_off (Or.inr rfl)] at hstages
  obtain ⟨order, horder, hstages⟩ := bind_eq_ok_iff.mp hstages
  obtain ⟨definitions, hfetch, hassemble⟩ := bind_eq_ok_iff.mp hstages
  obtain ⟨hform, hempty⟩ := nameForm_iff_of_assemble hassemble
  refine ⟨plain, fun config' enhancer?' completed' id' hoff hdone' => ?_, ?_⟩
  · -- The look-ups all succeeded, so in another order they bring the same definitions.
    have hfetch' := fetch_eq_ok_of_perm (mapError_eq_ok_iff.mp hfetch)
      (Lookups.perm_of_reaches_done hdone' hdone)
    have hsame : g.compile config' enhancer?' lookup completed' id = .ok plain := by
      rw [compile_of_off hoff, horder, hfetch']
      exact hassemble
    rw [← compile_map_id hoff lookup completed' id, hsame]
    rfl
  · by_cases hrenames : config.Renames enhancer? plain
    · obtain ⟨name, description, hname, heq⟩ := hrenames.exists_reword_eq
      rw [heq]
      exact ⟨rfl, fun hno => absurd hrenames hno,
        ⟨fun _ => Or.inr (Or.inr hrenames), fun _ => hname⟩, fun hno => absurd hname hno⟩
    · rw [CompilerConfig.reword_eq_self hrenames]
      refine ⟨rfl, fun _ => rfl, ?_, hempty⟩
      rw [hform, or_iff_left hrenames]

/-- An enhancer with a name that is not in form, and with nothing to say. -/
def twoCalls : Enhancer := fun _ _ => .ok ⟨" Two calls!", " "⟩

/-- The tool of two calls gets the name, and keeps its description. -/
theorem pair_nameForm_iff :
    Pair.graph.compile ⟨true, 0⟩ (some twoCalls) (fun id => .ok (Pair.api? id)) ["show", "list"]
        .nil = .ok { Pair.tool with name := "two_calls" } ∧
      NameForm "two_calls" ∧
      ∃ plain : Tool,
        (∀ id', Pair.graph.compile {} none (fun id => .ok (Pair.api? id)) ["list", "show"] id' =
          .ok { plain with id := id' }) ∧
        { Pair.tool with name := "two_calls" } =
          { plain with name := "two_calls", description := Pair.tool.description } := by
  have hcompile : Pair.graph.compile ⟨true, 0⟩ (some twoCalls) (fun id => .ok (Pair.api? id))
      ["show", "list"] .nil = .ok { Pair.tool with name := "two_calls" } := by
    with_unfolding_all rfl
  have hdone : ∀ config : CompilerConfig, ∀ completed, completed.Perm Pair.graph.apiIds →
      Lookups.Reaches config.permits (.start Pair.graph.apiIds) (.done completed) :=
    fun config _ hperm => (Lookups.reaches_done_iff_perm config.permits_pos).mpr hperm
  obtain ⟨plain, hplain, heq, -, hform, -⟩ :=
    nameForm_iff_of_compile (hdone _ _ (by decide +kernel)) hcompile
  refine ⟨hcompile, hform.mpr (Or.inl ⟨'P', by decide, by decide⟩), plain, fun id' => ?_, heq⟩
  exact hplain {} none _ id' (Or.inl rfl) (hdone _ _ (by decide +kernel))

/-! ### A graph that gives no name -/

/-- One call, in a graph whose name and id have no ASCII letter. -/
def unnamed : Graph where
  id := "表"
  name := "流程"
  nodes := [⟨"list", "list", []⟩]
  edges := []

/-- **The tool of such a graph has no name.** -/
theorem unnamed_compile :
    Lookups.Reaches (CompilerConfig.permits {}) (.start unnamed.apiIds) (.done ["list"]) ∧
      ∃ t, unnamed.compile {} none (fun id => .ok (Pair.api? id)) ["list"] .nil = .ok t ∧
        t.name = "" ∧ ¬NameForm t.name := by
  have hdone : Lookups.Reaches (CompilerConfig.permits {}) (.start unnamed.apiIds)
      (.done ["list"]) := by
    rw [Lookups.reaches_done_iff_perm (CompilerConfig.permits_pos _)]
    decide +kernel
  have hcompile : unnamed.compile {} none (fun id => .ok (Pair.api? id)) ["list"] .nil = .ok {
      id := .nil
      name := ""
      description := "Calls GET /items."
      inputSchema := Pair.tool.inputSchema
      outputSchema := .obj
        [("properties", .obj [("id", Pair.text)]), ("type", .str "object")]
      steps := [Pair.list] } := by
    with_unfolding_all rfl
  exact ⟨hdone, _, hcompile, rfl, not_nameForm_empty⟩

end Graph

end CallChain
