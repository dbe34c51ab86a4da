import CallChain.Proofs.Compile.Coverage
import CallChain.Proofs.Tool.Reads

/-!
# What of the input has an influence

A tool lists the fields of its input: the parameters that its first call leaves open. Its schema
does not forbid other fields, and every later call looks for its own parameters in all of the input.
So a field that the tool does not list may be sent (`CallChain.Graph.undeclared_field_sent`).

This is the only way in: inputs that agree on the fields that the tool lists and on those that its
later calls read lead to the same run (`CallChain.Graph.run_invoke_eq_of_agree`).
-/

set_option autoImplicit false

namespace CallChain

/-- **A tool declares a field**: its input schema lists a property of this name. -/
def Tool.Declares (t : Tool) (name : String) : Prop :=
  ((t.inputSchema.member? "properties").bind (·.member? name)).isSome = true

namespace Graph

variable {g : Graph} {definition? : String → Option ApiDefinition} {id : Uuid} {t : Tool}

/-- The targets of all mappings of a compiled tool start with names. -/
theorem isSome_headField?_of_compileWith (h : g.compileWith definition? id = .ok t) :
    ∀ s ∈ t.steps, ∀ m ∈ s.mappings, (m.target.headField?).isSome = true := by
  obtain ⟨first, later, hsteps, hnone, hcovered, -⟩ := exists_covered_steps h
  rw [hsteps, List.forall_mem_cons]
  exact ⟨by simp [hnone], fun s hs => (hcovered s hs).heads⟩

/-- **What the first call of a compiled tool reads, the tool declares.** -/
theorem declares_of_reads (h : g.compileWith definition? id = .ok t) {first : ToolStep}
    (hfirst : t.steps.head? = some first) {name : String} (hreads : first.Reads name) :
    t.Declares name := by
  obtain ⟨a, rest, node, api, later, -, -, -, hinput, hsteps⟩ := exists_plan_of_compileWith_eq_ok h
  obtain rfl : ToolStep.ofPlanStep (node.step api []) = first := by simpa [hsteps] using hfirst
  obtain ⟨p, hp, rfl⟩ := hreads.parameter
  rw [Tool.Declares, hinput, Plan.isSome_property_inputSchema_iff]
  exact ⟨p, mem_freeParameters_iff.mpr ⟨hp, hreads.not_fixed⟩, rfl⟩

/-- **Only what a tool declares or what its later calls read has an influence.** Two inputs that fit
and agree on all these fields lead to runs with the same requests in the same order, the same result
and the same state of the caller. -/
theorem run_invoke_eq_of_agree (h : g.compileWith definition? id = .ok t) {x y : Json}
    (hx : Schema.conforms t.inputSchema x = .ok ()) (hy : Schema.conforms t.inputSchema y = .ok ())
    (hdeclared : ∀ name, t.Declares name → x.member? name = y.member? name)
    (hread : ∀ s ∈ t.steps.tail, ∀ name, s.Reads name → x.member? name = y.member? name)
    {σ : Type} (call : Call (StateM σ)) (s : σ) :
    (t.invoke call.recorded x).run (s, []) = (t.invoke call.recorded y).run (s, []) := by
  have hheads := isSome_headField?_of_compileWith h
  obtain ⟨first, later, hsteps, hnone, -, -⟩ := exists_covered_steps h
  -- What the first call reads is declared, so the inputs agree on whatever any call reads.
  have hall : ∀ c ∈ t.steps, ∀ name, c.Reads name → x.member? name = y.member? name := by
    rw [hsteps] at hread ⊢
    refine List.forall_mem_cons.mpr ⟨fun name hreads => hdeclared name ?_, hread⟩
    exact declares_of_reads h (by rw [hsteps]; rfl) hreads
  have hfirst : ∀ c, t.steps.head? = some c → c.mappings = [] := by
    intro c hc
    obtain rfl : first = c := by simpa [hsteps] using hc
    exact hnone
  rw [Tool.invoke, Tool.invoke, hx, hy]
  exact congrArg (·.run (s, []))
    (Tool.runFrom_congr call.recorded 0 none hheads (fun _ => hfirst) hall)

/-- The two calls read nothing but `kind`: another field makes no difference. -/
theorem pair_run_invoke_eq_of_agree :
    (Pair.tool.invoke Pair.caller.recorded (.obj [("kind", .str "b")])).run (0, []) =
      (Pair.tool.invoke Pair.caller.recorded
        (.obj [("kind", .str "b"), ("other", .bool true)])).run (0, []) := by
  have hkind : ∀ name, name = "kind" → (Json.obj [("kind", .str "b")]).member? name =
      (Json.obj [("kind", .str "b"), ("other", .bool true)]).member? name := by
    rintro name rfl
    rfl
  refine run_invoke_eq_of_agree Pair.compileWith_eq (Schema.isConforming_iff.mp (by decide +kernel))
    (Schema.isConforming_iff.mp (by decide +kernel)) (fun name hdeclared => hkind name ?_)
    (fun s hs name hreads => hkind name ?_) Pair.caller 0
  · by_contra hname
    have hnone : (Pair.tool.inputSchema.member? "properties").bind (·.member? name) = none := by
      simp [Pair.tool, Json.member?, Entries.get?, Ne.symm hname]
    rw [Tool.Declares, hnone] at hdeclared
    cases hdeclared
  · obtain rfl : s = Pair.detail := List.mem_singleton.mp hs
    obtain ⟨p, hp, hpname⟩ := hreads.parameter
    have hcases : p.name = "id" ∨ p.name = "kind" := by
      simp only [Pair.detail, List.mem_cons, List.not_mem_nil, or_false] at hp
      rcases hp with rfl | rfl
      · exact Or.inl rfl
      · exact Or.inr rfl
    rcases hcases with hid | hkind'
    · -- The id comes from the response as a whole.
      exact absurd ⟨_, by rw [← hpname, hid]; rfl, by rw [← hpname, hid]⟩ hreads.not_whole
    · rw [← hpname, hkind']

end Graph

/-! ### A field that is not declared -/

namespace Pair

/-- The operations, with no parameter of the first and a `kind` of the second that may be left
out. -/
def openApi? : String → Option ApiDefinition
  | "list" => some {
      id := "list"
      method := .get
      path := "/items"
      parameters := []
      responses := [("200", .obj [("properties", .obj [("id", text)]), ("type", .str "object")])] }
  | "show" => some {
      id := "show"
      method := .get
      path := "/items/\x7bid\x7d"
      parameters := [⟨"id", .path, true, text⟩, ⟨"kind", .query, false, text⟩]
      responses := [("200", .obj [("type", .str "object")])] }
  | _ => none

/-- The tool of the two calls: its input has no fields. -/
def openTool : Tool where
  id := .nil
  name := "pair"
  description := "Calls 2 APIs in sequence: GET /items -> GET /items/\x7bid\x7d."
  inputSchema := .obj [("properties", .obj []), ("type", .str "object")]
  outputSchema := .obj [("type", .str "object")]
  steps := [
    { nodeId := "list", apiId := "list", method := .get, path := "/items", parameters := [] },
    { nodeId := "show", apiId := "show", method := .get, path := "/items/\x7bid\x7d",
      parameters := [⟨"id", .path, true, text⟩, ⟨"kind", .query, false, text⟩],
      mappings := [⟨[.field "id"], [.field "id"]⟩] }]

end Pair

/-- **A field that the tool does not declare may be sent all the same.** No field is declared here,
so any two inputs agree on the declared ones; yet `kind` makes a difference to the second call. -/
theorem Graph.undeclared_field_sent :
    Pair.graph.compileWith Pair.openApi? .nil = .ok Pair.openTool ∧
      Schema.conforms Pair.openTool.inputSchema (.obj []) = .ok () ∧
      Schema.conforms Pair.openTool.inputSchema (.obj [("kind", .str "b")]) = .ok () ∧
      (∀ name, Pair.openTool.Declares name →
        (Json.obj []).member? name = (Json.obj [("kind", .str "b")]).member? name) ∧
      (Pair.openTool.invoke Pair.caller.recorded (.obj [])).run (0, []) ≠
        (Pair.openTool.invoke Pair.caller.recorded (.obj [("kind", .str "b")])).run (0, []) := by
  have hempty : (Pair.openTool.invoke Pair.caller.recorded (.obj [])).run (0, []) =
      (.ok (.obj [("id", .str "a")]), 2,
        [⟨.get, "/items", [], none⟩, ⟨.get, "/items/a", [], none⟩]) := by
    with_unfolding_all rfl
  have hkind : (Pair.openTool.invoke Pair.caller.recorded (.obj [("kind", .str "b")])).run (0, []) =
      (.ok (.obj [("id", .str "a")]), 2,
        [⟨.get, "/items", [], none⟩, ⟨.get, "/items/a", [("kind", "b")], none⟩]) := by
    with_unfolding_all rfl
  refine ⟨by with_unfolding_all rfl, Schema.isConforming_iff.mp (by decide +kernel),
    Schema.isConforming_iff.mp (by decide +kernel), fun name hdeclared => ?_, ?_⟩
  · cases hdeclared
  · rw [hempty, hkind]
    intro hsame
    cases hsame

end CallChain
