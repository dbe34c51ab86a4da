import CallChain.Compile
import CallChain.Proofs.Graph.Chain
import CallChain.Proofs.Plan.Steps

/-!
# The stages of a compilation

A graph is compiled when it is a chain, the chain has a plan, and the plan has a contract
(`CallChain.Graph.compileWith_eq_ok_iff`). The chain is not empty, so a compiled tool has a first
step, and the contract asks for what this step leaves open
(`CallChain.Graph.exists_plan_of_compileWith_eq_ok`).
-/

set_option autoImplicit false

namespace CallChain

theorem Plan.contract_eq_ok_iff {p : Plan} {input output : Json} :
    p.contract = .ok (input, output) ↔ ∃ first last,
      p.steps.head? = some first ∧ p.steps.getLast? = some last ∧
      input = inputSchema first ∧ outputSchema last = .ok output := by
  rw [Plan.contract]
  split
  · rename_i first last hfirst hlast
    simp only [hfirst, hlast, except_map_eq_ok_iff, Prod.mk.injEq, Option.some.injEq]
    constructor
    · rintro ⟨out, hout, rfl, rfl⟩
      exact ⟨first, last, rfl, rfl, rfl, hout⟩
    · rintro ⟨first', last', rfl, rfl, rfl, hout⟩
      exact ⟨output, hout, rfl, rfl⟩
  · rename_i hnone
    simp only [reduceCtorEq, false_iff]
    rintro ⟨first, last, hfirst, hlast, -, -⟩
    exact hnone first last hfirst hlast

namespace Graph

variable {g : Graph} {definition? : String → Option ApiDefinition} {id : Uuid} {t : Tool}

theorem plan_eq_ok_iff {order : List String} {p : Plan} :
    g.plan definition? order = .ok p ↔ ∃ steps, planFrom g definition? none [] order = .ok steps ∧
      p = ⟨g.id, g.name, g.description, steps⟩ := by
  rw [Graph.plan, bind_eq_ok_iff]
  simp only [pure, Except.pure, Except.ok.injEq, eq_comm]

/-- **A compilation succeeds when each of its stages does.** -/
theorem compileWith_eq_ok_iff :
    g.compileWith definition? id = .ok t ↔ ∃ order steps first last output,
      g.IsChain order ∧ planFrom g definition? none [] order = .ok steps ∧
      steps.head? = some first ∧ steps.getLast? = some last ∧
      Plan.outputSchema last = .ok output ∧
      t = Plan.toTool ⟨g.id, g.name, g.description, steps⟩ id (Plan.inputSchema first) output := by
  simp only [Graph.compileWith, Graph.assemble, bind_eq_ok_iff, mapError_eq_ok_iff, Prod.exists,
    plan_eq_ok_iff, Plan.contract_eq_ok_iff, pure, Except.pure, Except.ok.injEq]
  constructor
  · rintro ⟨order, horder, p, ⟨steps, hsteps, rfl⟩, input, output,
      ⟨first, last, hfirst, hlast, rfl, houtput⟩, rfl⟩
    exact ⟨order, steps, first, last, output, isChain_of_order_eq_ok horder, hsteps, hfirst, hlast,
      houtput, rfl⟩
  · rintro ⟨order, steps, first, last, output, hchain, hsteps, hfirst, hlast, houtput, rfl⟩
    exact ⟨order, hchain.order_eq_ok, _, ⟨steps, hsteps, rfl⟩, _, output,
      ⟨first, last, hfirst, hlast, rfl, houtput⟩, rfl⟩

/-- **What a compiled tool consists of**: the step of the first node of a chain, the steps planned
behind it, and the input that the first step leaves open. -/
theorem exists_plan_of_compileWith_eq_ok (h : g.compileWith definition? id = .ok t) :
    ∃ a rest node api later, g.IsChain (a :: rest) ∧ g.LooksUp definition? a node api ∧
      planFrom g definition? (some (node.step api []))
        ((freeParameters api node.overrides).map (·.name)) rest = .ok later ∧
      t.inputSchema = Plan.inputSchema (node.step api []) ∧
      t.steps = (node.step api [] :: later).map ToolStep.ofPlanStep := by
  obtain ⟨order, steps, first, last, output, hchain, hsteps, hfirst, -, -, rfl⟩ :=
    compileWith_eq_ok_iff.mp h
  rcases order with _ | ⟨a, rest⟩
  · cases hsteps
    cases hfirst
  · obtain ⟨node, api, later, hlooks, hlater, rfl⟩ := planFrom_first_eq_ok_iff.mp hsteps
    obtain rfl : node.step api [] = first := by simpa using hfirst
    exact ⟨a, rest, node, api, later, hchain, hlooks, hlater, rfl, rfl⟩

end Graph

/-! ### Two calls -/

namespace Pair

/-- **Two calls**, declared in the wrong order: the second takes the id that the first answers. -/
def graph : Graph where
  id := "pair"
  name := "Pair"
  nodes := [⟨"show", "show", []⟩, ⟨"list", "list", []⟩]
  edges := [⟨"list", "show", [⟨"id", "id"⟩]⟩]

/-- The schema of strings. -/
def text : Json := .obj [("type", .str "string")]

/-- The operations: both take a `kind`, and only the second requires it. -/
def api? : String → Option ApiDefinition
  | "list" => some {
      id := "list"
      method := .get
      path := "/items"
      parameters := [⟨"kind", .query, false, text⟩]
      responses := [("200", .obj [("properties", .obj [("id", text)]), ("type", .str "object")])] }
  | "show" => some {
      id := "show"
      method := .get
      path := "/items/\x7bid\x7d"
      parameters := [⟨"id", .path, true, text⟩, ⟨"kind", .query, true, text⟩]
      responses := [("200", text)] }
  | _ => none

/-- The first call. -/
def list : ToolStep where
  nodeId := "list"
  apiId := "list"
  method := .get
  path := "/items"
  parameters := [⟨"kind", .query, false, text⟩]

/-- The second call. -/
def detail : ToolStep where
  nodeId := "show"
  apiId := "show"
  method := .get
  path := "/items/\x7bid\x7d"
  parameters := [⟨"id", .path, true, text⟩, ⟨"kind", .query, true, text⟩]
  mappings := [⟨[.field "id"], [.field "id"]⟩]

/-- The tool of the two calls. -/
def tool : Tool where
  id := .nil
  name := "pair"
  description := "Calls 2 APIs in sequence: GET /items -> GET /items/\x7bid\x7d."
  inputSchema := .obj [("properties", .obj [("kind", text)]), ("type", .str "object")]
  outputSchema := text
  steps := [list, detail]

/-- A caller that counts its calls and answers each with the same id. -/
def caller : Call (StateM ℕ) := fun _ s => (.ok ⟨200, .obj [("id", .str "a")]⟩, s + 1)

theorem compileWith_eq : graph.compileWith api? .nil = .ok tool := by
  with_unfolding_all rfl

end Pair

end CallChain
