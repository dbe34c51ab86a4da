import CallChain.Plan
import CallChain.Proofs.Result
import Mathlib.Data.List.Forall2

/-!
# The steps of a plan

Planning looks every node of an order up, reads the mappings into it and checks what it needs. A
node is planned with what the nodes before it have left, and without looking at the nodes behind it
(`CallChain.Graph.planNode`, `CallChain.Graph.planFrom_cons`). Here each check is replaced by what it
means, and `CallChain.Graph.planFrom_first_eq_ok_iff` and `CallChain.Graph.planFrom_later_eq_ok_iff`
say what it means that the planning of a node and all that follow it succeeds.
-/

set_option autoImplicit false

namespace CallChain

/-- The step of a node. -/
def Node.step (node : Node) (api : ApiDefinition) (mappings : List ParsedMapping) : PlanStep :=
  ⟨node.id, api, node.overrides, mappings⟩

namespace Graph

/-! ### Mappings -/

/-- **What is asked of a mapping**: it comes from the step before, both paths can be read, the
source is declared by the success response of the step before and the target by a parameter, of
the body if it goes deeper, with no index too large, and the types fit. -/
structure Accepts (previous : PlanStep) (api : ApiDefinition) (edge : Edge) (m : Mapping)
    (parsed : ParsedMapping) : Prop where
  source_eq : edge.source = previous.nodeId
  parse_source : FieldPath.parse m.source = .ok parsed.source
  parse_target : FieldPath.parse m.target = .ok parsed.target
  declared : ∃ code response given name parameter wanted,
    previous.api.successResponse? = some (code, response) ∧
    parsed.source.resolve response = .ok given ∧
    parsed.target.headField? = some name ∧
    api.parameter? name = some parameter ∧
    (parsed.target.tail = [] ∨ parameter.location = .body) ∧
    firstLargeIndex parsed.target.tail = none ∧
    parsed.target.tail.resolve parameter.schema = .ok wanted ∧
    Schema.isCompatible given wanted = true

theorem accepts_of_resolveMapping_eq_ok {previous : PlanStep} {node : Node} {api : ApiDefinition}
    {edge : Edge} {m : Mapping} {parsed : ParsedMapping}
    (h : resolveMapping previous node api edge m = .ok parsed) :
    Accepts previous api edge m parsed := by
  unfold resolveMapping at h
  -- Every check but the last leaves one way on; the others end in an error.
  split at h
  · cases h
  rename_i hedge
  split at h
  · cases h
  rename_i source hsource
  split at h
  · cases h
  rename_i target htarget
  split at h
  · cases h
  rename_i code response hresponse
  split at h
  · cases h
  rename_i given hgiven
  split at h
  · cases h
  rename_i name hname
  split at h
  · cases h
  rename_i parameter hparameter
  dsimp only at h
  split at h
  · cases h
  rename_i hnested
  split at h
  · cases h
  rename_i hindex
  split at h
  · cases h
  rename_i wanted hwanted
  split at h
  · rename_i htypes
    cases h
    refine ⟨by simpa using hedge, hsource, htarget, code, response, given, name, parameter, wanted,
      hresponse, hgiven, hname, hparameter, ?_, hindex, hwanted, htypes⟩
    by_cases htail : target.tail = []
    · exact Or.inl htail
    · exact Or.inr (by simpa [htail] using hnested)
  · cases h

/-- Mappings are read one by one. -/
theorem resolveMappings_eq_ok_iff {previous : PlanStep} {node : Node} {api : ApiDefinition}
    {pairs : List (Edge × Mapping)} {parsed : List ParsedMapping} :
    resolveMappings previous node api pairs = .ok parsed ↔
      List.Forall₂ (fun pair m => resolveMapping previous node api pair.1 pair.2 = .ok m)
        pairs parsed := by
  induction pairs generalizing parsed with
  | nil =>
    rw [resolveMappings, List.forall₂_nil_left_iff, Except.ok.injEq, eq_comm]
  | cons pair rest ih =>
    rw [resolveMappings, List.forall₂_cons_left_iff]
    simp only [bind_eq_ok_iff, pure, Except.pure, Except.ok.injEq]
    constructor
    · rintro ⟨first, hfirst, more, hmore, rfl⟩
      exact ⟨first, more, hfirst, ih.mp hmore, rfl⟩
    · rintro ⟨first, more, hfirst, hmore, rfl⟩
      exact ⟨first, hfirst, more, ih.mpr hmore, rfl⟩

/-! ### Required parameters -/

/-- **What is asked of a later step**: each required parameter has an override, a mapping or a
field of the tool's input. -/
theorem checkSatisfied_eq_ok_iff {node : Node} {api : ApiDefinition} {mappings : List ParsedMapping}
    {fields : List String} :
    checkSatisfied node api mappings fields = .ok () ↔
      ∀ p ∈ api.parameters, p.isRequired = true →
        (∃ m ∈ mappings, m.target.headField? = some p.name) ∨
          node.overrides.has p.name = true ∨ p.name ∈ fields := by
  have hgiven : ∀ name : String, (mappings.any (fun m => m.target.headField? == some name)
      || node.overrides.has name || fields.contains name) = true ↔
        (∃ m ∈ mappings, m.target.headField? = some name) ∨
          node.overrides.has name = true ∨ name ∈ fields := by
    intro name
    simp [or_assoc]
  unfold checkSatisfied
  dsimp only
  split
  · rename_i p hfind
    obtain ⟨hmem, hrequired⟩ := List.mem_filter.mp (List.mem_of_find?_eq_some hfind)
    have hnot := List.find?_some hfind
    simp only [reduceCtorEq, false_iff]
    intro hall
    rw [(hgiven p.name).mpr (hall p hmem hrequired)] at hnot
    cases hnot
  · rename_i hfind
    simp only [true_iff]
    intro p hp hrequired
    have hnot := List.find?_eq_none.mp hfind p (List.mem_filter.mpr ⟨hp, hrequired⟩)
    rw [Bool.not_eq_true, Bool.not_eq_false'] at hnot
    exact (hgiven p.name).mp hnot

theorem mem_freeParameters_iff {api : ApiDefinition} {overrides : Members} {p : Parameter} :
    p ∈ freeParameters api overrides ↔ p ∈ api.parameters ∧ overrides.has p.name = false := by
  rw [freeParameters, List.mem_filter, Bool.not_eq_true']

/-! ### Nodes -/

/-- **What is looked up for an id**: its node and the definition that the node names. The overrides
of the node are declared there, and so are the placeholders of the path. -/
structure LooksUp (g : Graph) (definition? : String → Option ApiDefinition) (id : String)
    (node : Node) (api : ApiDefinition) : Prop where
  node_eq : g.node? id = some node
  api_eq : definition? node.api = some api
  overrides_ok : checkOverrides node api = .ok ()
  placeholders_ok : checkPlaceholders node api = .ok ()

variable {g : Graph} {definition? : String → Option ApiDefinition} {fields : List String}
  {id : String} {rest : List String} {steps : List PlanStep}

/-- A node and its definition are found before anything is checked. -/
theorem exists_definition_of_planFrom_eq_ok {previous? : Option PlanStep}
    (h : planFrom g definition? previous? fields (id :: rest) = .ok steps) :
    ∃ node api, g.node? id = some node ∧ definition? node.api = some api := by
  rw [planFrom] at h
  rcases hnode : g.node? id with _ | node
  · rw [hnode] at h
    cases h
  · rw [hnode] at h
    rcases hapi : definition? node.api with _ | api
    · simp only [bind, Except.bind, hapi] at h
      cases h
    · exact ⟨node, api, rfl, hapi⟩

/-- What is left to do when a node and its definition are found. -/
theorem planFrom_eq_of_found {previous? : Option PlanStep} {node : Node} {api : ApiDefinition}
    (hnode : g.node? id = some node) (hapi : definition? node.api = some api) :
    planFrom g definition? previous? fields (id :: rest) = (do
      checkOverrides node api
      checkPlaceholders node api
      match previous? with
      | none =>
        let more ← planFrom g definition? (some (node.step api []))
          ((freeParameters api node.overrides).map (·.name)) rest
        return node.step api [] :: more
      | some previous =>
        let mappings ← resolveMappings previous node api (g.mappingsInto node.id)
        checkSatisfied node api mappings fields
        let more ← planFrom g definition? (some (node.step api mappings)) fields rest
        return node.step api mappings :: more) := by
  rw [planFrom, hnode]
  simp only [bind, Except.bind, hapi]
  rfl

/-- **Planning one node**: its step, and the fields of the tool's input for the nodes behind it. -/
def planNode (g : Graph) (definition? : String → Option ApiDefinition)
    (previous? : Option PlanStep) (fields : List String) (id : String) :
    Except PlanError (PlanStep × List String) :=
  match g.node? id with
  | none => .error (.unknownNode id)
  | some node =>
    match definition? node.api with
    | none => .error (.unknownApi node.id node.api)
    | some api => do
      checkOverrides node api
      checkPlaceholders node api
      match previous? with
      | none => return (node.step api [], (freeParameters api node.overrides).map (·.name))
      | some previous =>
        let mappings ← resolveMappings previous node api (g.mappingsInto node.id)
        checkSatisfied node api mappings fields
        return (node.step api mappings, fields)

/-- An order is planned node by node. -/
theorem planFrom_cons {previous? : Option PlanStep} : planFrom g definition? previous? fields (id :: rest) = (do
    let planned ← g.planNode definition? previous? fields id
    let more ← planFrom g definition? (some planned.1) planned.2 rest
    return planned.1 :: more) := by
  rcases hnode : g.node? id with _ | node
  · rw [planFrom, planNode, hnode]
    rfl
  rcases hapi : definition? node.api with _ | api
  · rw [planFrom, planNode, hnode]
    simp only [bind, Except.bind, hapi]
  rw [planFrom_eq_of_found hnode hapi, planNode, hnode]
  simp only [hapi, bind_assoc]
  cases previous? with
  | none => rfl
  | some previous => simp only [bind_assoc, pure_bind]

/-- **The first node of an order is planned** when it is looked up; the rest is planned behind it,
with the names of its free parameters as the fields of the input. -/
theorem planFrom_first_eq_ok_iff :
    planFrom g definition? none fields (id :: rest) = .ok steps ↔
      ∃ node api more, g.LooksUp definition? id node api ∧
        planFrom g definition? (some (node.step api []))
          ((freeParameters api node.overrides).map (·.name)) rest = .ok more ∧
        steps = node.step api [] :: more := by
  constructor
  · intro h
    obtain ⟨node, api, hnode, hapi⟩ := exists_definition_of_planFrom_eq_ok h
    rw [planFrom_eq_of_found hnode hapi] at h
    simp only [bind_eq_ok_iff, pure, Except.pure, Except.ok.injEq] at h
    obtain ⟨⟨⟩, hoverrides, ⟨⟩, hplaceholders, more, hmore, rfl⟩ := h
    exact ⟨node, api, more, ⟨hnode, hapi, hoverrides, hplaceholders⟩, hmore, rfl⟩
  · rintro ⟨node, api, more, h, hmore, rfl⟩
    rw [planFrom_eq_of_found h.node_eq h.api_eq]
    simp only [bind_eq_ok_iff, pure, Except.pure, Except.ok.injEq]
    exact ⟨(), h.overrides_ok, (), h.placeholders_ok, more, hmore, rfl⟩

/-- **A later node of an order is planned** when it is looked up, the mappings into it are read and
its required parameters are satisfied; the rest is planned behind it. -/
theorem planFrom_later_eq_ok_iff {previous : PlanStep} :
    planFrom g definition? (some previous) fields (id :: rest) = .ok steps ↔
      ∃ node api mappings more, g.LooksUp definition? id node api ∧
        resolveMappings previous node api (g.mappingsInto node.id) = .ok mappings ∧
        checkSatisfied node api mappings fields = .ok () ∧
        planFrom g definition? (some (node.step api mappings)) fields rest = .ok more ∧
        steps = node.step api mappings :: more := by
  constructor
  · intro h
    obtain ⟨node, api, hnode, hapi⟩ := exists_definition_of_planFrom_eq_ok h
    rw [planFrom_eq_of_found hnode hapi] at h
    simp only [bind_eq_ok_iff, pure, Except.pure, Except.ok.injEq] at h
    obtain ⟨⟨⟩, hoverrides, ⟨⟩, hplaceholders, mappings, hmappings, ⟨⟩, hsatisfied, more, hmore,
      rfl⟩ := h
    exact ⟨node, api, mappings, more, ⟨hnode, hapi, hoverrides, hplaceholders⟩, hmappings,
      hsatisfied, hmore, rfl⟩
  · rintro ⟨node, api, mappings, more, h, hmappings, hsatisfied, hmore, rfl⟩
    rw [planFrom_eq_of_found h.node_eq h.api_eq]
    simp only [bind_eq_ok_iff, pure, Except.pure, Except.ok.injEq]
    exact ⟨(), h.overrides_ok, (), h.placeholders_ok, mappings, hmappings, (), hsatisfied, more,
      hmore, rfl⟩

/-- **Every step planned behind another one** comes from a node that was looked up, with mappings
that were read and required parameters that are satisfied. -/
theorem exists_of_mem_planFrom {previous : PlanStep}
    (h : planFrom g definition? (some previous) fields rest = .ok steps) {s : PlanStep}
    (hs : s ∈ steps) :
    ∃ previous id node api mappings, g.LooksUp definition? id node api ∧
      resolveMappings previous node api (g.mappingsInto node.id) = .ok mappings ∧
      checkSatisfied node api mappings fields = .ok () ∧ s = node.step api mappings := by
  induction rest generalizing previous steps with
  | nil =>
    cases h
    cases hs
  | cons id rest ih =>
    obtain ⟨node, api, mappings, more, hlooks, hmappings, hsatisfied, hmore, rfl⟩ :=
      planFrom_later_eq_ok_iff.mp h
    rcases List.mem_cons.mp hs with rfl | hlater
    · exact ⟨previous, id, node, api, mappings, hlooks, hmappings, hsatisfied, rfl⟩
    · exact ih hmore hlater

/-- Every mapping that was read starts with a name. -/
theorem isSome_headField?_of_resolveMappings {previous : PlanStep} {node : Node}
    {api : ApiDefinition} {pairs : List (Edge × Mapping)} {mappings : List ParsedMapping}
    (h : resolveMappings previous node api pairs = .ok mappings) :
    ∀ m ∈ mappings, (m.target.headField?).isSome = true := by
  rw [resolveMappings_eq_ok_iff] at h
  induction h with
  | nil => simp
  | cons hpair _ ih =>
    obtain ⟨_, _, _, name, _, _, -, -, hname, -⟩ := (accepts_of_resolveMapping_eq_ok hpair).declared
    exact List.forall_mem_cons.mpr ⟨by rw [hname]; rfl, ih⟩

end Graph

end CallChain
