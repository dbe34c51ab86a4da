import CallChain.Proofs.Compile.Naming
import CallChain.Proofs.Graph.Verdict
import CallChain.Proofs.Plan.Failures

/-!
# What the report of a failed compilation points at

A client sees of a failure its kind, its wording, and the id of a node. What the id means depends on
the stage that failed; `CallChain.Graph.Explains` has one rule for each meaning.

* The checks of the graph name a node of the graph, or the end of an edge that is no node; only a
  graph without nodes has nothing to name.
* A look-up that fails concerns the catalog, and no node is named.
* Planning names the node at which it stops, and a missing response belongs to the last node. In
  both cases all nodes before it have passed the checks of planning
  (`CallChain.Graph.exists_first_failure`).

Which rules there are, and that every failure follows one of them, comes from the stages: the
verdict on the graph (`CallChain.Graph.explains_of_order_eq_error`), the look-ups, and the plan
(`CallChain.Graph.explains_of_assemble_eq_error`).
-/

set_option autoImplicit false

namespace CallChain

/-- The kinds of errors that are about a node whose edges or id are wrong. -/
def shapeKinds : List String :=
  ["DuplicateNode", "CycleDetected", "BranchingNode", "MultipleStartNodes"]

/-- The kinds of errors of planning. -/
def planKinds : List String :=
  ["UnknownApi", "InvalidMappingPath", "TypeMismatch", "UnknownParameter", "UnsatisfiedParameter",
    "UndeclaredPlaceholder"]

/-- The kind of an error about a node is a kind of planning. -/
theorem PlanError.IsAbout.kind_mem {id : String} {e : PlanError} (h : e.IsAbout id) :
    e.kind ∈ planKinds := by
  cases e with
  | unknownNode node => cases h
  | unknownApi | invalidMappingPath | typeMismatch | unknownParameter | unsatisfiedParameter
  | undeclaredPlaceholder => simp [kind, planKinds]

/-- The definition that a look-up brings, if it brings one. -/
def foundIn? (lookup : Lookup) (id : String) : Option ApiDefinition := (lookup id).toOption.join

theorem Plan.of_contract_eq_error {p : Plan} {e : ContractError} (hne : p.steps ≠ [])
    (h : p.contract = .error e) :
    ∃ last, p.steps.getLast? = some last ∧ last.api.successResponse? = none ∧
      e = .noSuccessResponse last.nodeId last.api.id := by
  rw [contract] at h
  split at h
  · rename_i last _ hlast
    rw [except_map_eq_error_iff, outputSchema] at h
    split at h
    · cases h
    · rename_i hnone
      cases h
      exact ⟨last, hlast, hnone, rfl⟩
  · rename_i hnone
    exact absurd (List.getLast?_eq_some_getLast hne) (hnone _ _ (List.head?_eq_some_head hne))

namespace Graph

variable {g : Graph} {config : CompilerConfig} {enhancer? : Option Enhancer} {lookup : Lookup}
  {completed : List String} {id : Uuid}

/-- **What a report says of a graph**, by what has failed. -/
inductive Explains (g : Graph) (lookup : Lookup) : ErrorReport → Prop
  /-- There is nothing to name. -/
  | noNodes {message : String} (hnodes : g.nodes = []) :
      g.Explains lookup ⟨"NoStartNode", message, none⟩
  /-- An edge has an end that is no node. -/
  | unknownEnd {message node : String} {e : Edge} (he : e ∈ g.edges)
      (hend : node = e.source ∨ node = e.target) (hnode : node ∉ g.ids) (hnodes : g.nodes ≠ []) :
      g.Explains lookup ⟨"UnknownEdgeEndpoint", message, some node⟩
  /-- The graph is no chain because of a node. -/
  | shape {kind message node : String} (hkind : kind ∈ shapeKinds) (hnode : node ∈ g.ids)
      (hchain : ∀ order, ¬g.IsChain order) : g.Explains lookup ⟨kind, message, some node⟩
  /-- The graph is a chain, and a look-up has failed. -/
  | catalog {message : String} {order : List String} {n : Node} {e : CatalogError}
      (hchain : g.IsChain order) (hn : n ∈ g.nodes) (he : lookup n.api = .error e) :
      g.Explains lookup ⟨"CatalogUnavailable", message, none⟩
  /-- All look-ups have succeeded, and planning has stopped at a node. -/
  | plan {kind message node : String} {before after : List String} {steps : List PlanStep}
      (hkind : kind ∈ planKinds) (hchain : g.IsChain (before ++ node :: after))
      (hfound : ∀ n ∈ g.nodes, ∃ found?, lookup n.api = .ok found?)
      (hbefore : g.Passes (foundIn? lookup) before steps)
      (hnode : ∀ steps, ¬g.Passes (foundIn? lookup) (before ++ [node]) steps) :
      g.Explains lookup ⟨kind, message, some node⟩
  /-- All nodes have passed the checks of planning, and the last has no response to give. -/
  | contract {message : String} {order : List String} {steps : List PlanStep} {last : PlanStep}
      (hchain : g.IsChain order) (hfound : ∀ n ∈ g.nodes, ∃ found?, lookup n.api = .ok found?)
      (hpasses : g.Passes (foundIn? lookup) order (steps ++ [last]))
      (hmissing : last.api.successResponse? = none) :
      g.Explains lookup ⟨"NoSuccessResponse", message, some last.nodeId⟩

/-! ### The stages -/

/-- The first of several nodes is named. -/
theorem explains_first {kind message : String} {nodes : List String} {node : String}
    (hkind : kind ∈ shapeKinds) (hnode : node ∈ nodes) (hnodes : ∀ a ∈ nodes, a ∈ g.ids)
    (hchain : ∀ order, ¬g.IsChain order) (lookup : Lookup) :
    g.Explains lookup ⟨kind, message, nodes.head?⟩ := by
  rcases nodes with _ | ⟨first, rest⟩
  · cases hnode
  · exact .shape hkind (hnodes first List.mem_cons_self) hchain

open Classical in
/-- **The checks of a graph** name a node, or an end of an edge that is none. -/
theorem explains_of_order_eq_error {e : GraphError} (h : g.order = .error e) (lookup : Lookup) :
    g.Explains lookup (CompileError.graph e).report := by
  have hchain : ∀ order, ¬g.IsChain order := by
    intro order hchain
    cases hchain.order_eq_ok.symm.trans h
  have hverdict : g.Verdict (.error e) := h ▸ g.verdict_order
  cases hverdict with
  | @repeated done rest id hids hfirst hrepeat =>
    have hmem : id ∈ g.ids := by simp [hids]
    exact .shape (show "DuplicateNode" ∈ shapeKinds by decide) hmem hchain
  | empty hnodes => exact .noNodes hnodes
  | @unknown hnodup hnodes edge hfirst =>
    have hunknown : ¬Known g.ids edge := by simpa using List.find?_some hfirst
    refine .unknownEnd (List.mem_of_find?_eq_some hfirst) ?_ ?_ hnodes
    · rw [unknownEnd]
      split
      · exact Or.inr rfl
      · exact Or.inl rfl
    · rw [unknownEnd]
      split
      · exact fun htarget => hunknown ⟨‹_›, htarget⟩
      · assumption
  | @cyclic hnumbered hnodes a hcycle =>
    obtain ⟨_, ⟨edge, hedge, rfl, -⟩, -⟩ := Relation.TransGen.head'_iff.mp hcycle
    have hmem : edge.source ∈ g.ids.filter g.BetweenCycles :=
      List.mem_filter.mpr ⟨(hnumbered.known edge hedge).1, by simpa using hcycle.betweenCycles⟩
    exact explains_first (show "CycleDetected" ∈ shapeKinds by decide) hmem
      (fun a ha => (List.mem_filter.mp ha).1) hchain lookup
  | branching hnumbered hnodes hacyclic hfirst =>
    exact .shape (show "BranchingNode" ∈ shapeKinds by decide) (List.mem_of_find?_eq_some hfirst)
      hchain
  | severalStarts hnumbered hnodes hacyclic hline hseveral =>
    obtain ⟨a, ha⟩ := List.exists_mem_of_length_pos (Nat.zero_lt_of_lt hseveral)
    exact explains_first (show "MultipleStartNodes" ∈ shapeKinds by decide) ha
      (fun a ha => (List.mem_filter.mp ha).1) hchain lookup

/-- **Planning** names the node at which it stops, and a plan without a response its last node. -/
theorem explains_of_assemble_eq_error {order : List String} {e : CompileError}
    (hchain : g.IsChain order) (hfound : ∀ n ∈ g.nodes, ∃ found?, lookup n.api = .ok found?)
    (h : g.assemble (foundIn? lookup) order id = .error e) : g.Explains lookup e.report := by
  simp only [assemble, Graph.plan, bind_eq_error_iff, mapError_eq_error_iff, mapError_eq_ok_iff,
    bind_eq_ok_iff, pure, Except.pure, Except.ok.injEq, reduceCtorEq, and_false, exists_false,
    or_false] at h
  rcases h with ⟨error, herror, rfl⟩ | ⟨_, ⟨steps, hsteps, rfl⟩, error, herror, rfl⟩
  · obtain ⟨before, node, after, steps, rfl, habout, hbefore, hfails⟩ :=
      exists_first_failure (fun _ => hchain.exists_node?) herror
    obtain rfl : error.nodeId = node := habout.nodeId_eq
    refine .plan habout.kind_mem hchain hfound (planFrom_eq_ok_iff.mp hbefore) fun steps' h => ?_
    cases hfails.symm.trans (planFrom_eq_ok_iff.mpr h)
  · have hpasses := planFrom_eq_ok_iff.mp hsteps
    have hne : steps ≠ [] := by
      rintro rfl
      exact hchain.nodes_ne_nil (List.map_eq_nil_iff.mp (hpasses.ids ▸ hchain.perm_ids).nil_eq.symm)
    obtain ⟨last, hlast, hmissing, rfl⟩ := Plan.of_contract_eq_error hne herror
    obtain ⟨front, rfl⟩ := List.getLast?_eq_some_iff.mp hlast
    exact .contract hchain hfound hpasses hmissing

/-- Of the nodes of a graph, the table of all definitions says what the look-ups found. -/
theorem get?_eq_foundIn? {definitions : Entries ApiDefinition} {n : Node}
    (h : Brings lookup g.apiIds definitions) (hn : n ∈ g.nodes) :
    Entries.get? definitions n.api = foundIn? lookup n.api := by
  have hmem : n.api ∈ g.apiIds := mem_apiIds_iff.mpr ⟨n, hn, rfl⟩
  refine Option.ext fun api => ?_
  rw [h.get?_eq_some_iff, and_iff_right hmem, foundIn?]
  rcases lookup n.api with e | found?
  · simp [Except.toOption]
  · simp [Except.toOption]

/-- **Every failure follows one of the rules**, in whatever order the look-ups have been joined. -/
theorem explains_of_compile_eq_error {e : CompileError}
    (hdone : Lookups.Reaches config.permits (.start g.apiIds) (.done completed))
    (h : g.compile config enhancer? lookup completed id = .error e) :
    g.Explains lookup e.report := by
  rw [compile_eq_map, except_map_eq_error_iff, compile_of_off (Or.inr rfl), bind_eq_error_iff] at h
  rcases h with herror | ⟨order, horder, h⟩
  · obtain ⟨error, horder, rfl⟩ := mapError_eq_error_iff.mp herror
    exact explains_of_order_eq_error horder lookup
  · have hchain := isChain_of_order_eq_ok (mapError_eq_ok_iff.mp horder)
    rw [bind_eq_error_iff] at h
    rcases h with herror | ⟨definitions, hfetch, h⟩
    · obtain ⟨error, hfetch, rfl⟩ := mapError_eq_error_iff.mp herror
      obtain ⟨n, hn, hfails⟩ := fetches_error_iff.mp ⟨completed, hdone, hfetch⟩
      exact .catalog hchain hn hfails
    · obtain ⟨hfound, hbrings⟩ :=
        fetches_ok_iff.mp ⟨completed, hdone, mapError_eq_ok_iff.mp hfetch⟩
      rw [assemble_congr fun n hn => get?_eq_foundIn? hbrings hn] at h
      exact explains_of_assemble_eq_error hchain hfound h

/-! ### Reports -/

/-- Kinds of errors about a node are no others. -/
theorem kind_ne_of_mem {kind : String} (h : kind ∈ shapeKinds ++ planKinds) :
    kind ≠ "NoStartNode" ∧ kind ≠ "CatalogUnavailable" ∧ kind ≠ "NoSuccessResponse" ∧
      kind ∉ ["UnknownNode", "EmptyPlan", "NoEndNode", "MultipleEndNodes", "DisconnectedNode"] := by
  revert kind
  decide

theorem notMem_planKinds {kind : String} (h : kind ∈ shapeKinds) : kind ∉ planKinds := by
  revert kind
  decide

namespace Explains

variable {report : ErrorReport}

theorem nodeId?_eq_none_iff (h : g.Explains lookup report) :
    report.nodeId? = none ↔ report.kind = "NoStartNode" ∨ report.kind = "CatalogUnavailable" := by
  cases h with
  | noNodes | unknownEnd | catalog | contract => simp
  | shape hkind => simp [kind_ne_of_mem (List.mem_append_left planKinds hkind)]
  | plan hkind => simp [kind_ne_of_mem (List.mem_append_right shapeKinds hkind)]

theorem kind_eq_noStartNode_iff (h : g.Explains lookup report) :
    report.kind = "NoStartNode" ↔ g.nodes = [] := by
  cases h with
  | noNodes hnodes => simp [hnodes]
  | unknownEnd he hend hnode hnodes => simp [hnodes]
  | @shape kind message node hkind hnode hchain =>
    have hnodes : g.nodes ≠ [] := by
      intro hnil
      rw [ids, hnil] at hnode
      cases hnode
    exact iff_of_false (kind_ne_of_mem (List.mem_append_left planKinds hkind)).1 hnodes
  | catalog hchain => simp [hchain.nodes_ne_nil]
  | plan hkind hchain =>
    exact iff_of_false (kind_ne_of_mem (List.mem_append_right shapeKinds hkind)).1
      hchain.nodes_ne_nil
  | contract hchain => simp [hchain.nodes_ne_nil]

theorem kind_eq_catalogUnavailable_iff (h : g.Explains lookup report) :
    report.kind = "CatalogUnavailable" ↔
      (∃ order, g.IsChain order) ∧ ∃ n ∈ g.nodes, ∃ e, lookup n.api = .error e := by
  -- Planning starts when all look-ups have succeeded.
  have hnone : (∀ n ∈ g.nodes, ∃ found?, lookup n.api = .ok found?) →
      ¬∃ n ∈ g.nodes, ∃ e, lookup n.api = .error e := by
    rintro hfound ⟨n, hn, e, he⟩
    obtain ⟨found?, hok⟩ := hfound n hn
    cases he.symm.trans hok
  cases h with
  | noNodes hnodes => simp [hnodes]
  | @unknownEnd message node e he hend hnode hnodes =>
    refine iff_of_false (by simp) ?_
    rintro ⟨⟨order, hchain⟩, -⟩
    rcases hend with rfl | rfl
    · exact hnode (hchain.ends_known e he).1
    · exact hnode (hchain.ends_known e he).2
  | shape hkind hnode hchain =>
    exact iff_of_false (kind_ne_of_mem (List.mem_append_left planKinds hkind)).2.1
      fun ⟨⟨order, h⟩, _⟩ => hchain order h
  | catalog hchain hn he => exact iff_of_true rfl ⟨⟨_, hchain⟩, _, hn, _, he⟩
  | plan hkind hchain hfound =>
    exact iff_of_false (kind_ne_of_mem (List.mem_append_right shapeKinds hkind)).2.1
      fun h => hnone hfound h.2
  | contract hchain hfound => exact iff_of_false (by simp) fun h => hnone hfound h.2

/-- An unknown end is an end of an edge, and no node. -/
theorem of_unknownEdgeEndpoint (h : g.Explains lookup report)
    (hkind : report.kind = "UnknownEdgeEndpoint") :
    ∃ node, report.nodeId? = some node ∧ node ∉ g.ids ∧
      ∃ e ∈ g.edges, node = e.source ∨ node = e.target := by
  cases h with
  | unknownEnd he hend hnode hnodes => exact ⟨_, rfl, hnode, _, he, hend⟩
  | noNodes | catalog | contract => simp at hkind
  | shape hshape =>
    subst hkind
    exact absurd hshape (by decide)
  | plan hplan =>
    subst hkind
    exact absurd hplan (by decide)

/-- Where planning or the response is the matter, the nodes before the named one have passed. -/
theorem exists_passes (h : g.Explains lookup report)
    (hkind : report.kind ∈ "NoSuccessResponse" :: planKinds) :
    ∃ before node after steps, report.nodeId? = some node ∧ g.IsChain (before ++ node :: after) ∧
      g.Passes (foundIn? lookup) before steps ∧
      (report.kind ∈ planKinds →
        ∀ steps, ¬g.Passes (foundIn? lookup) (before ++ [node]) steps) := by
  cases h with
  | noNodes | unknownEnd | catalog => simp [planKinds] at hkind
  | shape hshape =>
    obtain ⟨-, -, hresponse, -⟩ := kind_ne_of_mem (List.mem_append_left planKinds hshape)
    exact absurd ((List.mem_cons.mp hkind).resolve_left hresponse) (notMem_planKinds hshape)
  | plan _ hchain _ hbefore hnode => exact ⟨_, _, _, _, rfl, hchain, hbefore, fun _ => hnode⟩
  | @contract message order steps last hchain hfound hpasses hmissing =>
    obtain rfl : steps.map (·.nodeId) ++ [last.nodeId] = order := by simpa using hpasses.ids
    refine ⟨_, _, [], _, rfl, hchain, hpasses.left_of_append, fun hplan => ?_⟩
    simp [planKinds] at hplan

/-- Every report names a node of the graph, but for three kinds. -/
theorem exists_mem_ids (h : g.Explains lookup report)
    (hkind : report.kind ∉ ["NoStartNode", "CatalogUnavailable", "UnknownEdgeEndpoint"]) :
    ∃ node ∈ g.ids, report.nodeId? = some node := by
  have hmem : ∀ {before after : List String} {node : String},
      g.IsChain (before ++ node :: after) → node ∈ g.ids :=
    fun hchain => hchain.perm_ids.mem_iff.mp (by simp)
  by_cases hplanning : report.kind ∈ "NoSuccessResponse" :: planKinds
  · obtain ⟨before, node, after, steps, hnode, hchain, -⟩ := h.exists_passes hplanning
    exact ⟨node, hmem hchain, hnode⟩
  · cases h with
    | noNodes | unknownEnd | catalog => exact absurd (by simp) hkind
    | shape _ hnode => exact ⟨_, hnode, rfl⟩
    | plan hplan => exact absurd (List.mem_cons_of_mem _ hplan) hplanning
    | contract => exact absurd List.mem_cons_self hplanning

theorem kind_notMem (h : g.Explains lookup report) : report.kind ∉
    ["UnknownNode", "EmptyPlan", "NoEndNode", "MultipleEndNodes", "DisconnectedNode"] := by
  cases h with
  | noNodes | unknownEnd | catalog | contract => simp
  | shape hkind => exact (kind_ne_of_mem (List.mem_append_left planKinds hkind)).2.2.2
  | plan hkind => exact (kind_ne_of_mem (List.mem_append_right shapeKinds hkind)).2.2.2

end Explains

/-- **The report of a failed compilation points into the graph.**

* No node is named exactly if the graph has no nodes or, for a chain, a look-up of one of its
  operations has failed; each of the two has its own kind.
* An unknown end belongs to an edge of the graph and is not the id of a node.
* Every other report names a node of the graph. Where planning has failed, or the response is
  missing, the graph is a chain, and all nodes before this one have passed every check of planning;
  where planning has failed, the node itself has not.
* Errors of the other kinds that are declared do not arise. -/
theorem report_of_compile {report : ErrorReport}
    (hdone : Lookups.Reaches config.permits (.start g.apiIds) (.done completed))
    (hreport : CompileResponse.ofResult (g.compile config enhancer? lookup completed id) =
      .error report) :
    (report.nodeId? = none ↔ report.kind = "NoStartNode" ∨ report.kind = "CatalogUnavailable") ∧
    (report.kind = "NoStartNode" ↔ g.nodes = []) ∧
    (report.kind = "CatalogUnavailable" ↔
      (∃ order, g.IsChain order) ∧ ∃ n ∈ g.nodes, ∃ e, lookup n.api = .error e) ∧
    (report.kind = "UnknownEdgeEndpoint" → ∃ node, report.nodeId? = some node ∧ node ∉ g.ids ∧
      ∃ e ∈ g.edges, node = e.source ∨ node = e.target) ∧
    (report.kind ∉ ["NoStartNode", "CatalogUnavailable", "UnknownEdgeEndpoint"] →
      ∃ node ∈ g.ids, report.nodeId? = some node) ∧
    (report.kind ∈ "NoSuccessResponse" :: planKinds → ∃ before node after steps,
      report.nodeId? = some node ∧ g.IsChain (before ++ node :: after) ∧
      g.Passes (foundIn? lookup) before steps ∧
      (report.kind ∈ planKinds →
        ∀ steps, ¬g.Passes (foundIn? lookup) (before ++ [node]) steps)) ∧
    report.kind ∉
      ["UnknownNode", "EmptyPlan", "NoEndNode", "MultipleEndNodes", "DisconnectedNode"] := by
  have hexplains : g.Explains lookup report := by
    rcases hcompile : g.compile config enhancer? lookup completed id with e | t
    · rw [hcompile] at hreport
      cases hreport
      exact explains_of_compile_eq_error hdone hcompile
    · rw [hcompile] at hreport
      cases hreport
  exact ⟨hexplains.nodeId?_eq_none_iff, hexplains.kind_eq_noStartNode_iff,
    hexplains.kind_eq_catalogUnavailable_iff, hexplains.of_unknownEdgeEndpoint,
    hexplains.exists_mem_ids, hexplains.exists_passes, hexplains.kind_notMem⟩

/-- A catalog that only knows how to list. -/
def onlyList : Lookup := fun id => .ok (if id = "list" then Pair.api? id else none)

/-- The second of two calls is not known, and it is named. -/
theorem report_of_compile_onlyList : ∃ report,
    Lookups.Reaches (CompilerConfig.permits {}) (.start Pair.graph.apiIds)
      (.done ["show", "list"]) ∧
    CompileResponse.ofResult (Pair.graph.compile {} none onlyList ["show", "list"] .nil) =
      .error report ∧
    report.kind = "UnknownApi" ∧ ∃ node ∈ Pair.graph.ids, report.nodeId? = some node := by
  have hdone : Lookups.Reaches (CompilerConfig.permits {}) (.start Pair.graph.apiIds)
      (.done ["show", "list"]) := by
    rw [Lookups.reaches_done_iff_perm (CompilerConfig.permits_pos _)]
    decide +kernel
  have hreport : CompileResponse.ofResult
      (Pair.graph.compile {} none onlyList ["show", "list"] .nil) =
        .error (CompileError.plan (.unknownApi "show" "show")).report := by
    with_unfolding_all rfl
  obtain ⟨-, -, -, -, hnode, -⟩ := report_of_compile hdone hreport
  exact ⟨_, hdone, hreport, rfl, hnode (by decide)⟩

end Graph

end CallChain
