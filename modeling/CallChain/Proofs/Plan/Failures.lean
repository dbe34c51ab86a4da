import CallChain.Proofs.Plan.Mappings
import CallChain.Proofs.Plan.Placeholders

/-!
# Where planning fails

Planning goes along the order of a graph and stops at the first node that does not pass its checks.
What the checks ask for is said once for all steps (`CallChain.Graph.Passes`), and planning along an
order succeeds with just the steps that pass them (`CallChain.Graph.planFrom_eq_ok_iff`).

One node is planned with what the nodes before it have left, and without looking at the nodes behind
it (`CallChain.Graph.planNode`). If it fails, then with an error about itself. So an error of
planning splits the order into the nodes that have passed, the node that the error is about, and the
rest (`CallChain.Graph.exists_first_failure`).
-/

set_option autoImplicit false

namespace CallChain

open PathTemplate (parts)

namespace Graph

variable {g : Graph} {definition? : String → Option ApiDefinition} {fields : List String}
  {previous? : Option PlanStep} {id : String} {order : List String} {steps : List PlanStep}
  {node : Node} {api : ApiDefinition} {e : PlanError}

/-! ### One node -/

theorem isAbout_of_resolveMapping {previous : PlanStep} {edge : Edge} {m : Mapping}
    (h : resolveMapping previous node api edge m = .error e) : e.IsAbout node.id := by
  unfold resolveMapping at h
  dsimp only at h
  -- Whichever check fails, it is the node itself that the error names.
  repeat' split at h
  all_goals cases h <;> exact rfl

/-- **A node that fails is named by its error.** -/
theorem isAbout_of_planNode (hnode : g.node? id = some node)
    (h : g.planNode definition? previous? fields id = .error e) : e.IsAbout id := by
  obtain rfl : node.id = id := by simpa using List.find?_some hnode
  rcases planNode_error_cases hnode h with ⟨habout, -⟩ | ⟨previous, api, -, hmappings⟩
  · exact habout
  · obtain ⟨pair, -, hmapping⟩ := exists_of_resolveMappings_eq_error hmappings
    exact isAbout_of_resolveMapping hmapping

/-! ### A whole order -/

/-- **An error of planning splits the order**: what stands before the node that the error is about
is planned, and with this node it is not. -/
theorem exists_first_failure (hnodes : ∀ id ∈ order, ∃ node, g.node? id = some node)
    (h : planFrom g definition? previous? fields order = .error e) :
    ∃ before id after steps, order = before ++ id :: after ∧ e.IsAbout id ∧
      planFrom g definition? previous? fields before = .ok steps ∧
      planFrom g definition? previous? fields (before ++ [id]) = .error e := by
  induction order generalizing previous? fields with
  | nil => cases h
  | cons id rest ih =>
    obtain ⟨⟨node, hnode⟩, hrest⟩ := List.forall_mem_cons.mp hnodes
    rw [planFrom_cons, bind_eq_error_iff] at h
    rcases h with herror | ⟨planned, hplanned, h⟩
    · refine ⟨[], id, rest, [], rfl, isAbout_of_planNode hnode herror, rfl, ?_⟩
      rw [List.nil_append, planFrom_cons, herror]
      rfl
    · simp only [bind_eq_error_iff, pure, Except.pure, reduceCtorEq, and_false, exists_false,
        or_false] at h
      obtain ⟨before, failed, after, steps, rfl, habout, hbefore, hfailed⟩ := ih hrest h
      refine ⟨id :: before, failed, after, planned.1 :: steps, rfl, habout, ?_, ?_⟩
      · simp only [planFrom_cons, hplanned, bind, Except.bind, hbefore, pure, Except.pure]
      · simp only [List.cons_append, planFrom_cons, hplanned, bind, Except.bind, hfailed]

/-! ### What the checks ask for -/

/-- **A step has passed what is asked of it alone**: its node has been found and the definition that
the node names, and the step has the overrides of the node. Each of them is declared, and each hole
of the path has the name of a path parameter. -/
structure Prepared (g : Graph) (definition? : String → Option ApiDefinition) (s : PlanStep) :
    Prop where
  lookup : ∃ node, g.node? s.nodeId = some node ∧ definition? node.api = some s.api ∧
    s.overrides = node.overrides
  overrides : ∀ name ∈ s.overrides.names, ∃ p ∈ s.api.parameters, p.name = name
  holes : ∀ name, .hole name ∈ parts s.api.path.toList → s.api.FirstInPath name

/-- **A step has passed what is asked of it behind another one**: the mappings into its node have
been accepted, one for one, and each required parameter has a mapping, an override or a field of the
tool's input. -/
structure Supplied (g : Graph) (fields : List String) (previous s : PlanStep) : Prop where
  mappings : List.Forall₂ (fun pair m => Accepts previous s.api pair.1 pair.2 m)
    (g.mappingsInto s.nodeId) s.mappings
  required : ∀ p ∈ s.api.parameters, p.isRequired = true →
    (∃ m ∈ s.mappings, m.target.headField? = some p.name) ∨
      s.overrides.has p.name = true ∨ p.name ∈ fields

/-- **The nodes of an order have passed every check of planning**, each with its step. The fields of
the tool's input are the parameters that the first step leaves open. -/
structure Passes (g : Graph) (definition? : String → Option ApiDefinition) (order : List String)
    (steps : List PlanStep) : Prop where
  ids : steps.map (·.nodeId) = order
  prepared : ∀ s ∈ steps, g.Prepared definition? s
  first : ∀ s ∈ steps.head?, s.mappings = []
  supplied : ∀ s ∈ steps.head?,
    steps.IsChain (g.Supplied ((freeParameters s.api s.overrides).map (·.name)))

/-- The nodes at the front of an order have passed the checks if all have. -/
theorem Passes.left_of_append {front rest : List PlanStep}
    (h : g.Passes definition? order (front ++ rest)) :
    g.Passes definition? (front.map (·.nodeId)) front := by
  have hhead : ∀ s ∈ front.head?, s ∈ (front ++ rest).head? := by
    rintro s hs
    rw [List.head?_append, Option.mem_def.mp hs]
    rfl
  exact ⟨rfl, fun s hs => h.prepared s (List.mem_append_left rest hs),
    fun s hs => h.first s (hhead s hs), fun s hs => (h.supplied s (hhead s hs)).left_of_append⟩

theorem resolveMapping_eq_ok_iff {previous : PlanStep} {edge : Edge} {m : Mapping}
    {parsed : ParsedMapping} :
    resolveMapping previous node api edge m = .ok parsed ↔ Accepts previous api edge m parsed := by
  refine ⟨accepts_of_resolveMapping_eq_ok, ?_⟩
  rintro ⟨hsource, hparse, hparse', code, response, given, name, parameter, wanted, hresponse,
    hgiven, hname, hparameter, hnested, hindex, hwanted, htypes⟩
  have hbody : ¬(!parsed.target.tail.isEmpty && parameter.location != .body) = true := by
    rcases hnested with hnil | hbody
    · simp [hnil]
    · simp [hbody]
  rw [resolveMapping, if_neg (by simp [hsource])]
  simp only [hparse, hparse', hresponse, hgiven, hname, hparameter, if_neg hbody, hindex, hwanted,
    htypes, if_true]

theorem checkOverrides_eq_ok_iff :
    checkOverrides node api = .ok () ↔
      ∀ name ∈ node.overrides.names, ∃ p ∈ api.parameters, p.name = name := by
  have hdeclared : ∀ name, (api.parameter? name).isNone = false ↔
      ∃ p ∈ api.parameters, p.name = name := by
    intro name
    simp [ApiDefinition.parameter?]
  rw [checkOverrides]
  split
  · rename_i name hfind
    have hnot := List.find?_some hfind
    refine iff_of_false (by simp) fun hall => ?_
    rw [(hdeclared name).mpr (hall name (List.mem_of_find?_eq_some hfind))] at hnot
    cases hnot
  · rename_i hfind
    refine iff_of_true rfl fun name hname => (hdeclared name).mp ?_
    exact Bool.eq_false_iff.mpr (List.find?_eq_none.mp hfind name hname)

theorem checkPlaceholders_eq_ok_iff :
    checkPlaceholders node api = .ok () ↔
      ∀ name, .hole name ∈ parts api.path.toList → api.FirstInPath name := by
  have hjudged := judgesHoles_checkPlaceholders node api
  rcases hcheck : checkPlaceholders node api with e | _
  · rw [hcheck] at hjudged
    obtain ⟨before, name, after, hparts, -, hnot, -⟩ := hjudged
    refine iff_of_false (by simp) fun hall => hnot (hall name ?_)
    simp [hparts]
  · rw [hcheck] at hjudged
    exact iff_of_true rfl hjudged

/-- A node is looked up when its step is prepared, whatever mappings it has. -/
theorem looksUp_iff (mappings : List ParsedMapping) :
    g.LooksUp definition? id node api ↔ g.node? id = some node ∧
      g.Prepared definition? (node.step api mappings) := by
  constructor
  · intro h
    have hnode : g.node? node.id = some node := h.id_eq ▸ h.node_eq
    exact ⟨h.node_eq, ⟨node, hnode, h.api_eq, rfl⟩, checkOverrides_eq_ok_iff.mp h.overrides_ok,
      checkPlaceholders_eq_ok_iff.mp h.placeholders_ok⟩
  · rintro ⟨hnode, ⟨⟨node', hnode', hapi, -⟩, hoverrides, hholes⟩⟩
    have hid : node.id = id := by simpa using List.find?_some hnode
    obtain rfl : node = node' := Option.some_inj.mp (hnode.symm.trans (hid ▸ hnode'))
    exact ⟨hnode, hapi, checkOverrides_eq_ok_iff.mpr hoverrides,
      checkPlaceholders_eq_ok_iff.mpr hholes⟩

/-- A step that is prepared is the step of a node. -/
theorem Prepared.exists_eq_step {s : PlanStep} (h : g.Prepared definition? s) :
    ∃ node, g.node? s.nodeId = some node ∧ s = node.step s.api s.mappings := by
  obtain ⟨node, hnode, -, hoverrides⟩ := h.lookup
  have hid : node.id = s.nodeId := by simpa using List.find?_some hnode
  exact ⟨node, hnode, by rw [Node.step, hid, ← hoverrides]⟩

theorem supplied_step_iff {previous : PlanStep} {mappings : List ParsedMapping} :
    g.Supplied fields previous (node.step api mappings) ↔
      resolveMappings previous node api (g.mappingsInto node.id) = .ok mappings ∧
        checkSatisfied node api mappings fields = .ok () := by
  simp only [resolveMappings_eq_ok_iff, resolveMapping_eq_ok_iff, checkSatisfied_eq_ok_iff]
  exact ⟨fun h => ⟨h.mappings, h.required⟩, fun h => ⟨h.1, h.2⟩⟩

/-- Steps are planned behind another one when they are prepared and supplied. -/
theorem planFrom_some_eq_ok_iff {previous : PlanStep} :
    planFrom g definition? (some previous) fields order = .ok steps ↔
      steps.map (·.nodeId) = order ∧ (∀ s ∈ steps, g.Prepared definition? s) ∧
        (previous :: steps).IsChain (g.Supplied fields) := by
  induction order generalizing previous steps with
  | nil =>
    rw [planFrom, Except.ok.injEq, List.map_eq_nil_iff]
    constructor
    · rintro rfl
      exact ⟨rfl, List.forall_mem_nil _, List.isChain_singleton previous⟩
    · exact fun h => h.1.symm
  | cons id rest ih =>
    rw [planFrom_later_eq_ok_iff]
    constructor
    · rintro ⟨node, api, mappings, more, hlooks, hmappings, hsatisfied, hmore, rfl⟩
      obtain ⟨hids, hprepared, hsupplied⟩ := ih.mp hmore
      refine ⟨?_, ?_, ?_⟩
      · rw [List.map_cons, hids, Node.step, hlooks.id_eq]
      · exact List.forall_mem_cons.mpr ⟨((looksUp_iff mappings).mp hlooks).2, hprepared⟩
      · exact List.isChain_cons_cons.mpr ⟨supplied_step_iff.mpr ⟨hmappings, hsatisfied⟩, hsupplied⟩
    · rintro ⟨hids, hprepared, hsupplied⟩
      obtain ⟨s, more, rfl⟩ : ∃ s more, steps = s :: more :=
        List.exists_cons_of_ne_nil (by rintro rfl; cases hids)
      obtain ⟨rfl, hrest⟩ := List.cons.inj hids
      obtain ⟨hfirst, hlater⟩ := List.forall_mem_cons.mp hprepared
      obtain ⟨hstep, hbehind⟩ := List.isChain_cons_cons.mp hsupplied
      obtain ⟨node, hnode, heq⟩ := hfirst.exists_eq_step
      rw [heq] at hfirst hstep hbehind
      obtain ⟨hmappings, hsatisfied⟩ := supplied_step_iff.mp hstep
      exact ⟨node, s.api, s.mappings, more, (looksUp_iff s.mappings).mpr ⟨hnode, hfirst⟩, hmappings,
        hsatisfied, ih.mpr ⟨hrest, hlater, hbehind⟩, congrArg (· :: more) heq⟩

/-- **Planning along an order succeeds with just the steps that pass every check.** -/
theorem planFrom_eq_ok_iff :
    planFrom g definition? none [] order = .ok steps ↔ g.Passes definition? order steps := by
  rcases order with _ | ⟨id, rest⟩
  · rw [planFrom, Except.ok.injEq]
    constructor
    · rintro rfl
      exact ⟨rfl, List.forall_mem_nil _, by simp, by simp⟩
    · exact fun h => (List.map_eq_nil_iff.mp h.ids).symm
  · simp only [planFrom_first_eq_ok_iff, planFrom_some_eq_ok_iff]
    constructor
    · rintro ⟨node, api, more, hlooks, ⟨hids, hprepared, hsupplied⟩, rfl⟩
      refine ⟨?_, ?_, ?_, ?_⟩
      · rw [List.map_cons, hids, Node.step, hlooks.id_eq]
      · exact List.forall_mem_cons.mpr ⟨((looksUp_iff []).mp hlooks).2, hprepared⟩
      · rintro s ⟨⟩
        rfl
      · rintro s ⟨⟩
        exact hsupplied
    · rintro ⟨hids, hprepared, hfirst, hsupplied⟩
      obtain ⟨s, more, rfl⟩ : ∃ s more, steps = s :: more :=
        List.exists_cons_of_ne_nil (by rintro rfl; cases hids)
      obtain ⟨rfl, hrest⟩ := List.cons.inj hids
      obtain ⟨hself, hlater⟩ := List.forall_mem_cons.mp hprepared
      obtain ⟨node, hnode, heq⟩ := hself.exists_eq_step
      have hbehind := hsupplied s rfl
      rw [hfirst s rfl] at heq
      rw [heq] at hself hbehind
      exact ⟨node, s.api, more, (looksUp_iff []).mpr ⟨hnode, hself⟩, ⟨hrest, hlater, hbehind⟩,
        congrArg (· :: more) heq⟩

end Graph

end CallChain
