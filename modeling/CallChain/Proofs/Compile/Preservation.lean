import CallChain.Proofs.Plan.Mappings
import CallChain.Proofs.Schema.Keywords
import CallChain.Proofs.Tool.Run

/-!
# Compiling keeps the meaning of a graph

A run of a compiled tool does what the interpretation of its graph does: the same requests in the
same order, the same result, and the caller is left in the same state
(`CallChain.Graph.interprets_iff_invoke`).

The tool and the interpretation move together along the chain. Where the interpretation follows the
edge out of a node, the plan goes on with the node at its end, and what was planned from all edges
into this node are the mappings of the edge that was followed, because on a chain it is the only
one (`CallChain.Graph.IsChain.exists_next_step`).
-/

set_option autoImplicit false

namespace CallChain

namespace Graph

variable {g : Graph} {definition? : String → Option ApiDefinition}

/-! ### One step along the chain -/

/-- **The plan goes on where the edge leads**: behind a node of the chain comes the node at the end
of the edge out of it, planned with the mappings of this edge. -/
theorem IsChain.exists_next_step {done rest : List String} {node node' : Node}
    (hchain : g.IsChain (done ++ node.id :: rest)) {e : Edge} (hedge : e ∈ g.edges)
    (hsource : e.source = node.id) (hnode : node' ∈ g.nodes) (htarget : node'.id = e.target)
    {previous : PlanStep} {fields : List String} {later : List PlanStep}
    (hplan : planFrom g definition? (some previous) fields rest = .ok later) :
    ∃ rest' api mappings later', rest = node'.id :: rest' ∧
      definition? node'.api = some api ∧ e.mappings.mapM Mapping.parsed? = some mappings ∧
      planFrom g definition? (some (node'.step api mappings)) fields rest' = .ok later' ∧
      later = node'.step api mappings :: later' := by
  have harrow : (node.id, node'.id) ∈ consecutive (done ++ node.id :: rest) :=
    hchain.arrow_iff.mp ⟨e, hedge, hsource, htarget.symm⟩
  obtain ⟨rest', rfl⟩ := exists_eq_cons_of_mem_consecutive hchain.order_nodup harrow
  obtain ⟨found, api, mappings, later', hlooks, hmappings, -, hlater', rfl⟩ :=
    planFrom_later_eq_ok_iff.mp hplan
  obtain rfl : node' = found := by
    have hfound := (node?_eq_some_iff hchain.ids_nodup).mpr ⟨hnode, rfl⟩
    exact Option.some.inj (hfound.symm.trans hlooks.node_eq)
  -- All edges into the node are the one that was followed.
  have hread := mapM_parsed?_incoming hmappings
  rw [htarget, hchain.incoming_eq hedge, List.flatMap_singleton] at hread
  exact ⟨rest', api, mappings, later', rfl, hlooks.api_eq, hread, hlater', rfl⟩

/-! ### Where tool and interpretation stand -/

/-- **A tool stands at a node**: the calls that it has left to make are the step of the node, with
the mappings that are brought along, and the steps planned behind it on the rest of the chain. -/
def StandsAt (g : Graph) (definition? : String → Option ApiDefinition) (node : Node)
    (arrival : Arrival) (steps : List PlanStep) : Prop :=
  ∃ done rest fields api mappings later, g.IsChain (done ++ node.id :: rest) ∧
    definition? node.api = some api ∧ arrival.mappings? = some mappings ∧
    planFrom g definition? (some (node.step api mappings)) fields rest = .ok later ∧
    steps = node.step api mappings :: later

namespace StandsAt

variable {node node' : Node} {arrival : Arrival} {first : PlanStep} {steps later : List PlanStep}
  {e : Edge}

theorem ne_nil (h : g.StandsAt definition? node arrival steps) : steps ≠ [] := by
  obtain ⟨_, _, _, _, _, _, -, -, -, -, rfl⟩ := h
  exact List.cons_ne_nil _ _

/-- Both ask for the same request. -/
theorem request?_eq (h : g.StandsAt definition? node arrival (first :: later)) (input : Json)
    (step : ℕ) :
    node.request? definition? input step arrival =
      some ((ToolStep.ofPlanStep first).request step input arrival.answer?) := by
  obtain ⟨_, _, _, api, mappings, _, -, hapi, hmappings, -, heq⟩ := h
  obtain ⟨rfl, -⟩ := List.cons.inj heq
  rw [Node.request?, hapi, hmappings]
  rfl

/-- Where the interpretation follows an edge, the tool goes on to the next step. -/
theorem next (h : g.StandsAt definition? node arrival (first :: later)) (hedge : e ∈ g.edges)
    (hsource : e.source = node.id) (hnode : node' ∈ g.nodes) (htarget : node'.id = e.target)
    (answer : Json) : g.StandsAt definition? node' (.along e answer) later := by
  obtain ⟨done, rest, fields, api, mappings, _, hchain, -, -, hplan, heq⟩ := h
  obtain ⟨-, rfl⟩ := List.cons.inj heq
  obtain ⟨rest', api', mappings', later', rfl, hapi', hmappings', hplan', rfl⟩ :=
    hchain.exists_next_step hedge hsource hnode htarget hplan
  refine ⟨done ++ [node.id], rest', fields, api', mappings', later', ?_, hapi', hmappings', hplan',
    rfl⟩
  simpa using hchain

/-- Either the tool has made its last call and no edge leads on, or an edge leads to a node. -/
theorem last_or_next (h : g.StandsAt definition? node arrival (first :: later)) :
    (later = [] ∧ ∀ e ∈ g.edges, e.source ≠ node.id) ∨
      ∃ e ∈ g.edges, e.source = node.id ∧ ∃ node' ∈ g.nodes, node'.id = e.target := by
  obtain ⟨done, rest, fields, api, mappings, _, hchain, -, -, hplan, heq⟩ := h
  obtain ⟨-, rfl⟩ := List.cons.inj heq
  rcases rest with _ | ⟨b, rest⟩
  · refine Or.inl ⟨by cases hplan; rfl, fun e hedge hsource => ?_⟩
    have hmem : e.source ∈ (done ++ [node.id]).dropLast :=
      hchain.map_source_perm.mem_iff.mp (List.mem_map_of_mem hedge)
    rw [List.dropLast_concat, hsource] at hmem
    exact List.disjoint_of_nodup_append hchain.order_nodup hmem List.mem_cons_self
  · obtain ⟨e, hedge, hsource, htarget⟩ :=
      hchain.arrow_iff.mpr (mem_consecutive_append done node.id b rest)
    obtain ⟨node', hnode, hid⟩ := List.mem_map.mp (hchain.ends_known e hedge).2
    exact Or.inr ⟨e, hedge, hsource, node', hnode, hid⟩

end StandsAt

/-! ### Runs -/

section Runs

variable {σ : Type} {call : Call (StateM σ)} {input : Json} {node : Node} {arrival : Arrival}

/-- **What the interpretation does, the tool does.** -/
theorem RunsFrom.runFrom_eq {step : ℕ} {s s' : σ} {requests : List Request}
    {result : Except ToolError Json}
    (h : g.RunsFrom definition? call input step node arrival s requests result s')
    {steps : List PlanStep} (hstands : g.StandsAt definition? node arrival steps)
    (sent : List Request) :
    (Tool.runFrom call.recorded input step arrival.answer? (steps.map ToolStep.ofPlanStep)).run
      (s, sent) = (result, s', sent ++ requests) := by
  induction h generalizing steps sent with
  | refused hrequest =>
    obtain ⟨first, later, rfl⟩ := List.exists_cons_of_ne_nil hstands.ne_nil
    rw [hstands.request?_eq, Option.some_inj] at hrequest
    rw [List.map_cons, Tool.runFrom_of_refused hrequest, List.append_nil]
  | lost hrequest hcall =>
    obtain ⟨first, later, rfl⟩ := List.exists_cons_of_ne_nil hstands.ne_nil
    rw [hstands.request?_eq, Option.some_inj] at hrequest
    rw [List.map_cons, Tool.runFrom_of_lost hrequest (Call.run_recorded hcall sent)]
  | failed hrequest hcall hfailed =>
    obtain ⟨first, later, rfl⟩ := List.exists_cons_of_ne_nil hstands.ne_nil
    rw [hstands.request?_eq, Option.some_inj] at hrequest
    rw [List.map_cons, Tool.runFrom_of_failed hrequest (Call.run_recorded hcall sent) hfailed]
  | last hrequest hcall hsuccess hlast =>
    obtain ⟨first, later, rfl⟩ := List.exists_cons_of_ne_nil hstands.ne_nil
    rw [hstands.request?_eq, Option.some_inj] at hrequest
    rw [List.map_cons, Tool.runFrom_of_success hrequest (Call.run_recorded hcall sent) hsuccess]
    rcases hstands.last_or_next with ⟨rfl, -⟩ | ⟨e, hedge, hsource, -⟩
    · rfl
    · exact absurd hsource (hlast e hedge)
  | next hrequest hcall hsuccess hedge hsource hnode htarget _ ih =>
    obtain ⟨first, later, rfl⟩ := List.exists_cons_of_ne_nil hstands.ne_nil
    have hnext := hstands.next hedge hsource hnode htarget
    rw [hstands.request?_eq, Option.some_inj] at hrequest
    rw [List.map_cons, Tool.runFrom_of_success hrequest (Call.run_recorded hcall sent) hsuccess]
    refine (ih (hnext _) _).trans ?_
    rw [List.append_assoc]
    rfl

/-- **The interpretation of a chain comes to an end.** -/
theorem StandsAt.exists_runsFrom {steps : List PlanStep}
    (h : g.StandsAt definition? node arrival steps) (call : Call (StateM σ)) (input : Json)
    (step : ℕ) (s : σ) :
    ∃ requests result s',
      g.RunsFrom definition? call input step node arrival s requests result s' := by
  induction steps generalizing node arrival step s with
  | nil => exact absurd rfl h.ne_nil
  | cons first later ih =>
    have hrequest := h.request?_eq input step
    rcases hfirst : (ToolStep.ofPlanStep first).request step input arrival.answer? with e | request
    · rw [hfirst] at hrequest
      exact ⟨_, _, _, .refused hrequest⟩
    · rw [hfirst] at hrequest
      rcases hcall : (call request).run s with ⟨reason | response, s'⟩
      · exact ⟨_, _, _, .lost hrequest hcall⟩
      · rcases hsuccess : response.isSuccess
        · exact ⟨_, _, _, .failed hrequest hcall hsuccess⟩
        · rcases h.last_or_next with ⟨-, hlast⟩ | ⟨e, hedge, hsource, node', hnode, htarget⟩
          · exact ⟨_, _, _, .last hrequest hcall hsuccess hlast⟩
          · obtain ⟨requests, result, s'', hrest⟩ :=
              ih (h.next hedge hsource hnode htarget response.body) (step + 1) s'
            exact ⟨_, _, _, .next hrequest hcall hsuccess hedge hsource hnode htarget hrest⟩

/-- **Compiling keeps the meaning of a graph**: for every input that fits and every caller, a run
of the compiled tool makes the requests that the interpretation of the graph makes, in the same
order, with the same result, and leaves the caller in the same state. -/
theorem interprets_iff_invoke {id : Uuid} {t : Tool} (h : g.compileWith definition? id = .ok t)
    (hinput : Schema.conforms t.inputSchema input = .ok ()) (call : Call (StateM σ)) (s s' : σ)
    (requests : List Request) (result : Except ToolError Json) :
    g.Interprets definition? call input s requests result s' ↔
      (t.invoke call.recorded input).run (s, []) = (result, s', requests) := by
  obtain ⟨a, rest, start, api, later, hchain, hlooks, hlater, -, hsteps⟩ :=
    exists_plan_of_compileWith_eq_ok h
  obtain ⟨hstart, rfl⟩ := (node?_eq_some_iff hchain.ids_nodup).mp hlooks.node_eq
  have honly : ∀ node ∈ g.nodes, g.incoming node.id = [] ↔ node = start := by
    intro node hnode
    rw [hchain.incoming_eq_nil_iff (List.mem_map_of_mem hnode)]
    exact ⟨List.inj_on_of_nodup_map hchain.ids_nodup hnode hstart, congrArg Node.id⟩
  have hstands : g.StandsAt definition? start .start (start.step api [] :: later) :=
    ⟨[], rest, _, api, [], later, hchain, hlooks.api_eq, rfl, hlater, rfl⟩
  have hinvoke : t.invoke call.recorded input = Tool.runFrom call.recorded input 0 none
      ((start.step api [] :: later).map ToolStep.ofPlanStep) := by
    rw [Tool.invoke, hinput, hsteps]
  rw [hinvoke]
  constructor
  · rintro ⟨first, hfirst, hnothing, hruns⟩
    obtain rfl : first = start := (honly first hfirst).mp ((hnothing first hfirst).mpr rfl)
    exact hruns.runFrom_eq hstands []
  · intro hrun
    -- The interpretation comes to an end, and that end is the one of the run.
    obtain ⟨requests', result', s'', hruns⟩ := hstands.exists_runsFrom call input 0 s
    have hsame : (result', s'', requests') = (result, s', requests) :=
      (hruns.runFrom_eq hstands []).symm.trans hrun
    cases hsame
    exact ⟨start, hstart, honly, hruns⟩

/-- The interpretation of the two calls, read off a run of their tool. -/
theorem pair_interprets :
    Pair.graph.compileWith Pair.api? .nil = .ok Pair.tool ∧
      Schema.conforms Pair.tool.inputSchema (.obj [("kind", .str "b")]) = .ok () ∧
      Pair.graph.Interprets Pair.api? Pair.caller (.obj [("kind", .str "b")]) 0
        [⟨.get, "/items", [("kind", "b")], none⟩, ⟨.get, "/items/a", [("kind", "b")], none⟩]
        (.ok (.obj [("id", .str "a")])) 2 := by
  have hinput : Schema.conforms Pair.tool.inputSchema (.obj [("kind", .str "b")]) = .ok () :=
    Schema.isConforming_iff.mp (by decide +kernel)
  refine ⟨Pair.compileWith_eq, hinput, ?_⟩
  refine (interprets_iff_invoke Pair.compileWith_eq hinput Pair.caller 0 2 _ _).mpr ?_
  with_unfolding_all rfl

end Runs

end Graph

end CallChain
