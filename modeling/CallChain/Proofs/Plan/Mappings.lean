import CallChain.Proofs.Compile.Stages
import CallChain.Proofs.Interpretation

/-!
# The mappings of a plan

The plan of a chain takes over every mapping of the graph, each in its place and each once
(`CallChain.Graph.plan_of_order_eq_ok`). The first step has none. Behind a step comes the step that
the one edge out of its node leads to, with the mappings of this edge, read one for one and in the
order of their declaration (`CallChain.Graph.Follows`); and every mapping fits the two operations
that it connects (`CallChain.ParsedMapping.Fits`).

Planning looks for all edges into a node and for the first node of an id. On a chain there is one
of each, and the edge comes from the step before; so two of the errors of planning cannot arise
(`CallChain.PlanError.Misplaced`).
-/

set_option autoImplicit false

namespace CallChain

/-! ### Mappings that fit -/

/-- **A mapping fits two operations**: its source is declared by the success response of the first;
its target starts with the name of a parameter of the second, leads further in the body only, has
no index that is too large, and is declared by the schema of the parameter; and the types agree. -/
def ParsedMapping.Fits (m : ParsedMapping) (previous api : ApiDefinition) : Prop :=
  ∃ code response given name parameter wanted,
    previous.successResponse? = some (code, response) ∧
    m.source.resolve response = .ok given ∧
    m.target.headField? = some name ∧
    api.parameter? name = some parameter ∧
    (m.target.tail ≠ [] → parameter.location = .body) ∧
    (∀ i, Segment.index i ∈ m.target → i ≤ maxTargetIndex) ∧
    m.target.tail.resolve parameter.schema = .ok wanted ∧
    Schema.isCompatible given wanted = true

namespace Graph

theorem firstLargeIndex_eq_none_iff {p : FieldPath} :
    firstLargeIndex p = none ↔ ∀ i, Segment.index i ∈ p → i ≤ maxTargetIndex := by
  induction p with
  | nil => simp [firstLargeIndex]
  | cons s rest ih =>
    cases s with
    | field name => simp [firstLargeIndex, ih]
    | index i =>
      rw [firstLargeIndex]
      split
      · rename_i hlarge
        simp only [reduceCtorEq, false_iff]
        exact fun hall => absurd (hall i List.mem_cons_self) (Nat.not_le.mpr hlarge)
      · rename_i hsmall
        simp [ih, Nat.not_lt.mp hsmall]

/-- What is asked of a mapping makes it fit. -/
theorem Accepts.fits {previous : PlanStep} {api : ApiDefinition} {edge : Edge} {m : Mapping}
    {parsed : ParsedMapping} (h : Accepts previous api edge m parsed) :
    parsed.Fits previous.api api := by
  obtain ⟨code, response, given, name, parameter, wanted, hresponse, hgiven, hname, hparameter,
    hnested, hindex, hwanted, htypes⟩ := h.declared
  refine ⟨code, response, given, name, parameter, wanted, hresponse, hgiven, hname, hparameter,
    fun hne => hnested.resolve_left hne, fun i hi => ?_, hwanted, htypes⟩
  -- The target starts with a name, so its indices are behind it.
  obtain ⟨rest, htarget⟩ : ∃ rest, parsed.target = .field name :: rest := by
    rcases htarget : parsed.target with _ | ⟨⟨field⟩ | ⟨j⟩, rest⟩
    · rw [htarget] at hname
      cases hname
    · rw [htarget] at hname
      cases hname
      exact ⟨rest, rfl⟩
    · rw [htarget] at hname
      cases hname
  rw [htarget] at hi hindex
  exact firstLargeIndex_eq_none_iff.mp hindex i ((List.mem_cons.mp hi).resolve_left (by simp))

section Read

variable {previous : PlanStep} {node : Node} {api : ApiDefinition} {pairs : List (Edge × Mapping)}
  {mappings : List ParsedMapping}

/-- Mappings that planning accepts can be read, and are what planning takes over. -/
theorem mapM_parsed?_of_resolveMappings
    (h : resolveMappings previous node api pairs = .ok mappings) :
    (pairs.map (·.2)).mapM Mapping.parsed? = some mappings := by
  rw [resolveMappings_eq_ok_iff] at h
  induction h with
  | nil => rfl
  | cons hfirst _ ih =>
    have haccepts := accepts_of_resolveMapping_eq_ok hfirst
    rw [List.map_cons, List.mapM_cons, Mapping.parsed?, haccepts.parse_source,
      haccepts.parse_target, ih]
    rfl

theorem fits_of_resolveMappings (h : resolveMappings previous node api pairs = .ok mappings) :
    ∀ m ∈ mappings, m.Fits previous.api api := by
  rw [resolveMappings_eq_ok_iff] at h
  induction h with
  | nil => simp
  | cons hfirst _ ih =>
    exact List.forall_mem_cons.mpr ⟨(accepts_of_resolveMapping_eq_ok hfirst).fits, ih⟩

/-- The mappings into a node are those of the edges into it. -/
theorem mapM_parsed?_incoming {g : Graph} {id : String}
    (h : resolveMappings previous node api (g.mappingsInto id) = .ok mappings) :
    ((g.incoming id).flatMap (·.mappings)).mapM Mapping.parsed? = some mappings := by
  have hedges : (g.mappingsInto id).map (·.2) = (g.incoming id).flatMap (·.mappings) := by
    simp [mappingsInto, List.map_flatMap]
  exact hedges ▸ mapM_parsed?_of_resolveMappings h

end Read

/-! ### Steps along a chain -/

/-- **A step follows another one**: one edge leads from the node of the one to the node of the
other, the step has the mappings of this edge, one for one and in order, and each of them fits. -/
def Follows (g : Graph) (previous s : PlanStep) : Prop :=
  (∃ e, g.edges.filter (fun e => e.source == previous.nodeId && e.target == s.nodeId) = [e] ∧
    e.mappings.mapM Mapping.parsed? = some s.mappings) ∧
  ∀ m ∈ s.mappings, m.Fits previous.api s.api

variable {g : Graph} {definition? : String → Option ApiDefinition} {fields : List String}
  {order : List String}

theorem LooksUp.id_eq {id : String} {node : Node} {api : ApiDefinition}
    (h : g.LooksUp definition? id node api) : node.id = id := by
  simpa using List.find?_some h.node_eq

/-- Every id of a chain has a node. -/
theorem IsChain.exists_node? (h : g.IsChain order) {id : String} (hid : id ∈ order) :
    ∃ node, g.node? id = some node := by
  obtain ⟨node, hmem, hnode⟩ := List.mem_map.mp (h.perm_ids.mem_iff.mp hid)
  exact ⟨node, (node?_eq_some_iff h.ids_nodup).mpr ⟨hmem, hnode⟩⟩

/-- An edge of a chain leads to each id from the one before, and nothing else does. -/
theorem IsChain.exists_incoming_eq {done rest : List String} {a b : String}
    (h : g.IsChain (done ++ a :: b :: rest)) : ∃ e, g.incoming b = [e] ∧ e.source = a := by
  obtain ⟨e, hedge, hsource, rfl⟩ := h.arrow_iff.mpr (mem_consecutive_append done a b rest)
  exact ⟨e, h.incoming_eq hedge, hsource⟩

/-- Edges are found by source and target among those into the target. -/
theorem filter_edges_eq (g : Graph) (a b : String) :
    g.edges.filter (fun e => e.source == a && e.target == b) =
      (g.incoming b).filter (·.source == a) := by
  rw [incoming, List.filter_filter]

/-- **Along a chain every step follows the one before.** -/
theorem isChain_follows_of_planFrom {done rest : List String} {previous : PlanStep}
    {later : List PlanStep} (hchain : g.IsChain (done ++ previous.nodeId :: rest))
    (h : planFrom g definition? (some previous) fields rest = .ok later) :
    (previous :: later).IsChain g.Follows := by
  induction rest generalizing done previous later with
  | nil =>
    cases h
    exact List.isChain_singleton previous
  | cons id rest ih =>
    obtain ⟨node, api, mappings, more, hlooks, hmappings, -, hmore, rfl⟩ :=
      planFrom_later_eq_ok_iff.mp h
    obtain rfl : node.id = id := hlooks.id_eq
    obtain ⟨e, hincoming, hsource⟩ := hchain.exists_incoming_eq
    have hparsed : e.mappings.mapM Mapping.parsed? = some mappings := by
      have hread := mapM_parsed?_incoming hmappings
      rwa [hincoming, List.flatMap_singleton] at hread
    have hedge : g.edges.filter
        (fun e => e.source == previous.nodeId && e.target == node.id) = [e] := by
      simp [filter_edges_eq, hincoming, hsource]
    have hfollows : g.Follows previous (node.step api mappings) :=
      ⟨⟨e, hedge, hparsed⟩, fits_of_resolveMappings hmappings⟩
    have hbehind :
        g.IsChain ((done ++ [previous.nodeId]) ++ (node.step api mappings).nodeId :: rest) := by
      rw [List.append_assoc]
      exact hchain
    exact List.isChain_cons_cons.mpr ⟨hfollows, ih hbehind hmore⟩

/-! ### All mappings -/

/-- **A step stands for a node**: it has the definition that the node names and its overrides, and
its mappings are those of the edges into the node. -/
structure StandsFor (g : Graph) (definition? : String → Option ApiDefinition) (s : PlanStep) :
    Prop where
  lookup : ∃ node, g.node? s.nodeId = some node ∧ definition? node.api = some s.api ∧
    s.overrides = node.overrides
  mappings : ((g.incoming s.nodeId).flatMap (·.mappings)).mapM Mapping.parsed? = some s.mappings

theorem LooksUp.standsFor {id : String} {node : Node} {api : ApiDefinition}
    {mappings : List ParsedMapping} (h : g.LooksUp definition? id node api)
    (hmappings : ((g.incoming node.id).flatMap (·.mappings)).mapM Mapping.parsed? =
      some mappings) : g.StandsFor definition? (node.step api mappings) := by
  have hnode : g.node? node.id = some node := by
    rw [h.id_eq]
    exact h.node_eq
  exact ⟨⟨node, hnode, h.api_eq, rfl⟩, hmappings⟩

/-- The steps behind another one stand for the nodes of the order. -/
theorem standsFor_of_planFrom {previous : PlanStep} {later : List PlanStep}
    (h : planFrom g definition? (some previous) fields order = .ok later) :
    later.map (·.nodeId) = order ∧ ∀ s ∈ later, g.StandsFor definition? s := by
  induction order generalizing previous later with
  | nil =>
    cases h
    exact ⟨rfl, by simp⟩
  | cons id rest ih =>
    obtain ⟨node, api, mappings, more, hlooks, hmappings, -, hmore, rfl⟩ :=
      planFrom_later_eq_ok_iff.mp h
    obtain rfl : node.id = id := hlooks.id_eq
    obtain ⟨hids, hall⟩ := ih hmore
    exact ⟨congrArg (node.id :: ·) hids,
      List.forall_mem_cons.mpr ⟨hlooks.standsFor (mapM_parsed?_incoming hmappings), hall⟩⟩

/-- The mappings of all steps are those of the edges into the nodes they stand for. -/
theorem mapM_parsed?_of_standsFor {steps : List PlanStep}
    (h : ∀ s ∈ steps, g.StandsFor definition? s) :
    (((steps.map (·.nodeId)).flatMap g.incoming).flatMap (·.mappings)).mapM Mapping.parsed? =
      some (steps.flatMap (·.mappings)) := by
  induction steps with
  | nil => rfl
  | cons s later ih =>
    obtain ⟨hfirst, hlater⟩ := List.forall_mem_cons.mp h
    rw [List.map_cons, List.flatMap_cons, List.flatMap_append, List.mapM_append, hfirst.mappings,
      ih hlater]
    rfl

/-- The edges into the nodes of a chain are all its edges, each once. -/
theorem IsChain.perm_flatMap_incoming (h : g.IsChain order) :
    (order.flatMap g.incoming).Perm g.edges := by
  have htargets : (g.edges.map (·.target)).Nodup :=
    h.map_target_perm.nodup_iff.mpr (h.order_nodup.sublist (List.tail_sublist order))
  have hincoming : (order.flatMap g.incoming).Nodup := by
    refine List.nodup_flatMap.mpr ⟨fun id _ => htargets.of_map.filter _, ?_⟩
    refine h.order_nodup.imp fun {a b} hne e hea heb => hne ?_
    have ha : e.target = a := by simpa using (List.mem_filter.mp hea).2
    have hb : e.target = b := by simpa using (List.mem_filter.mp heb).2
    exact ha.symm.trans hb
  refine (List.perm_ext_iff_of_nodup hincoming htargets.of_map).mpr fun e => ?_
  rw [List.mem_flatMap]
  constructor
  · rintro ⟨id, -, he⟩
    exact (List.mem_filter.mp he).1
  · intro he
    refine ⟨e.target, h.perm_ids.mem_iff.mpr (h.ends_known e he).2, ?_⟩
    exact List.mem_filter.mpr ⟨he, beq_self_eq_true _⟩

end Graph

/-! ### Errors -/

/-- **An error that says that a step is out of place**: its node is not part of the graph, or an
edge into it does not come from the step before. -/
def PlanError.Misplaced : PlanError → Prop
  | .unknownNode _ => True
  | .invalidMappingPath _ _ (.sourceNotPreceding _) => True
  | _ => False

/-- **An error is about a node** of the graph: it names the node, and does not say that there is
none. -/
def PlanError.IsAbout (id : String) : PlanError → Prop
  | .unknownNode _ => False
  | e => e.nodeId = id

theorem PlanError.IsAbout.nodeId_eq {id : String} {e : PlanError} (h : e.IsAbout id) :
    e.nodeId = id := by
  cases e with
  | unknownNode node => cases h
  | unknownApi | invalidMappingPath | typeMismatch | unknownParameter | unsatisfiedParameter
  | undeclaredPlaceholder => exact h

namespace Graph

variable {g : Graph} {definition? : String → Option ApiDefinition} {fields : List String}
  {order rest : List String} {id : String} {node : Node} {api : ApiDefinition} {e : PlanError}

/-- A mapping on an edge from the step before may have any other fault. -/
theorem not_misplaced_of_resolveMapping {previous : PlanStep} {edge : Edge} {m : Mapping}
    (hsource : edge.source = previous.nodeId)
    (h : resolveMapping previous node api edge m = .error e) : ¬e.Misplaced := by
  have hpreceding : ¬(edge.source != previous.nodeId) = true := by simp [hsource]
  rw [resolveMapping, if_neg hpreceding] at h
  dsimp only at h
  -- The check of the source is behind us; what the others report is of another kind.
  repeat' split at h
  all_goals cases h <;> exact not_false

/-- Mappings fail with the error of one of them. -/
theorem exists_of_resolveMappings_eq_error {previous : PlanStep} {pairs : List (Edge × Mapping)}
    (h : resolveMappings previous node api pairs = .error e) :
    ∃ pair ∈ pairs, resolveMapping previous node api pair.1 pair.2 = .error e := by
  induction pairs with
  | nil => cases h
  | cons pair later ih =>
    simp only [resolveMappings, bind_eq_error_iff, pure, Except.pure, reduceCtorEq] at h
    rcases h with herror | ⟨_, -, herror | ⟨_, -, ⟨⟩⟩⟩
    · exact ⟨pair, List.mem_cons_self, herror⟩
    · obtain ⟨other, hother, hmapping⟩ := ih herror
      exact ⟨other, List.mem_cons_of_mem pair hother, hmapping⟩

theorem not_misplaced_of_resolveMappings {previous : PlanStep} {pairs : List (Edge × Mapping)}
    (hsource : ∀ pair ∈ pairs, pair.1.source = previous.nodeId)
    (h : resolveMappings previous node api pairs = .error e) : ¬e.Misplaced := by
  obtain ⟨pair, hpair, hmapping⟩ := exists_of_resolveMappings_eq_error h
  exact not_misplaced_of_resolveMapping (hsource pair hpair) hmapping

theorem exists_of_checkOverrides_eq_error (h : checkOverrides node api = .error e) :
    ∃ name, e = .unknownParameter node.id name := by
  rw [checkOverrides] at h
  split at h
  · cases h
    exact ⟨_, rfl⟩
  · cases h

theorem exists_of_checkPlaceholders_eq_error (h : checkPlaceholders node api = .error e) :
    ∃ name, e = .undeclaredPlaceholder node.id api.id name := by
  rw [checkPlaceholders] at h
  split at h
  · cases h
    exact ⟨_, rfl⟩
  · cases h

theorem exists_of_checkSatisfied_eq_error {mappings : List ParsedMapping}
    (h : checkSatisfied node api mappings fields = .error e) :
    ∃ name, e = .unsatisfiedParameter node.id name := by
  unfold checkSatisfied at h
  dsimp only at h
  split at h
  · cases h
    exact ⟨_, rfl⟩
  · cases h

/-- **Where one node fails**: at the node itself, with an error that is about it and of another kind,
or at the mappings into it. -/
theorem planNode_error_cases {previous? : Option PlanStep} (hnode : g.node? id = some node)
    (h : g.planNode definition? previous? fields id = .error e) :
    (e.IsAbout node.id ∧ ¬e.Misplaced) ∨ ∃ previous api, previous? = some previous ∧
      resolveMappings previous node api (g.mappingsInto node.id) = .error e := by
  rw [planNode, hnode] at h
  rcases hapi : definition? node.api with _ | api
  · simp only [hapi] at h
    cases h
    exact Or.inl ⟨rfl, not_false⟩
  simp only [hapi, bind_eq_error_iff] at h
  rcases h with herror | ⟨⟨⟩, -, herror | ⟨⟨⟩, -, h⟩⟩
  · obtain ⟨name, rfl⟩ := exists_of_checkOverrides_eq_error herror
    exact Or.inl ⟨rfl, not_false⟩
  · obtain ⟨name, rfl⟩ := exists_of_checkPlaceholders_eq_error herror
    exact Or.inl ⟨rfl, not_false⟩
  cases previous? with
  | none => cases h
  | some previous =>
    simp only [bind_eq_error_iff] at h
    rcases h with herror | ⟨mappings, -, herror | ⟨⟨⟩, -, ⟨⟩⟩⟩
    · exact Or.inr ⟨previous, api, rfl, herror⟩
    · obtain ⟨name, rfl⟩ := exists_of_checkSatisfied_eq_error herror
      exact Or.inl ⟨rfl, not_false⟩

/-- The step of a node has its id. -/
theorem nodeId_of_planNode {previous? : Option PlanStep} (hnode : g.node? id = some node)
    {planned : PlanStep × List String}
    (h : g.planNode definition? previous? fields id = .ok planned) :
    planned.1.nodeId = node.id := by
  rw [planNode, hnode] at h
  rcases hapi : definition? node.api with _ | api
  · simp only [hapi] at h
    cases h
  simp only [hapi, bind_eq_ok_iff] at h
  obtain ⟨⟨⟩, -, ⟨⟩, -, h⟩ := h
  cases previous? with
  | none =>
    cases h
    rfl
  | some previous =>
    simp only [bind_eq_ok_iff] at h
    obtain ⟨mappings, -, ⟨⟩, -, ⟨⟩⟩ := h
    rfl

/-- **Where planning fails**: at the node, with an error of another kind, at the mappings into it,
or behind it. -/
theorem planFrom_error_cases {previous? : Option PlanStep} (hnode : g.node? id = some node)
    (h : planFrom g definition? previous? fields (id :: rest) = .error e) :
    ¬e.Misplaced ∨
      (∃ previous api, previous? = some previous ∧
        resolveMappings previous node api (g.mappingsInto node.id) = .error e) ∨
      ∃ s fields', s.nodeId = node.id ∧
        planFrom g definition? (some s) fields' rest = .error e := by
  rw [planFrom_cons, bind_eq_error_iff] at h
  rcases h with herror | ⟨planned, hplanned, h⟩
  · rcases planNode_error_cases hnode herror with ⟨-, hnot⟩ | hmappings
    · exact Or.inl hnot
    · exact Or.inr (Or.inl hmappings)
  · simp only [bind_eq_error_iff, pure, Except.pure, reduceCtorEq, and_false, exists_false,
      or_false] at h
    exact Or.inr (Or.inr ⟨planned.1, planned.2, nodeId_of_planNode hnode hplanned, h⟩)

/-- **Behind a step of a chain no step is out of place.** -/
theorem not_misplaced_of_planFrom {done : List String} {previous : PlanStep}
    (hchain : g.IsChain (done ++ previous.nodeId :: rest))
    (h : planFrom g definition? (some previous) fields rest = .error e) : ¬e.Misplaced := by
  induction rest generalizing done previous fields with
  | nil => cases h
  | cons id rest ih =>
    have hid : id ∈ done ++ previous.nodeId :: id :: rest := by simp
    obtain ⟨node, hnode⟩ := hchain.exists_node? hid
    obtain rfl : node.id = id := by simpa using List.find?_some hnode
    rcases planFrom_error_cases hnode h with hnot | ⟨_, api, heq, hmappings⟩ |
      ⟨s, fields', hs, hbehind⟩
    · exact hnot
    · obtain rfl := Option.some.inj heq
      -- All edges into the node are one, and it comes from the step before.
      obtain ⟨edge, hincoming, hsource⟩ := hchain.exists_incoming_eq
      refine not_misplaced_of_resolveMappings (fun pair hpair => ?_) hmappings
      rw [mappingsInto, hincoming, List.flatMap_singleton, List.mem_map] at hpair
      obtain ⟨m, -, rfl⟩ := hpair
      exact hsource
    · have hchain' : g.IsChain ((done ++ [previous.nodeId]) ++ s.nodeId :: rest) := by
        rw [List.append_assoc, hs]
        exact hchain
      exact ih hchain' hbehind

/-! ### Plans of chains -/

/-- **The plan of a chain takes over every mapping of the graph**, each in its place and each once.
Its steps stand for the nodes of the chain. The first step has no mappings, and every other one
follows the one before, with mappings that fit. All steps together have the mappings of all edges,
each edge once. And when there is no plan, the reason is never that a step is out of place. -/
theorem plan_of_order_eq_ok (horder : g.order = .ok order) :
    (∀ p, g.plan definition? order = .ok p →
      p.steps.map (·.nodeId) = order ∧
      (∀ s ∈ p.steps, g.StandsFor definition? s) ∧
      (∀ first, p.steps.head? = some first → first.mappings = []) ∧
      p.steps.IsChain g.Follows ∧
      ∃ edges : List Edge, edges.Perm g.edges ∧
        (edges.flatMap (·.mappings)).mapM Mapping.parsed? = some (p.steps.flatMap (·.mappings))) ∧
    ∀ e, g.plan definition? order = .error e → ¬e.Misplaced := by
  have hchain := isChain_of_order_eq_ok horder
  rcases order with _ | ⟨a, rest⟩
  · exact absurd (List.map_eq_nil_iff.mp hchain.perm_ids.nil_eq.symm) hchain.nodes_ne_nil
  constructor
  · intro p hp
    obtain ⟨steps, hsteps, rfl⟩ := plan_eq_ok_iff.mp hp
    obtain ⟨node, api, later, hlooks, hlater, rfl⟩ := planFrom_first_eq_ok_iff.mp hsteps
    obtain rfl : node.id = a := hlooks.id_eq
    have hincoming : g.incoming node.id = [] :=
      (hchain.incoming_eq_nil_iff (hchain.perm_ids.mem_iff.mp List.mem_cons_self)).mpr rfl
    obtain ⟨hids, hbehind⟩ := standsFor_of_planFrom hlater
    have hall : ∀ s ∈ node.step api [] :: later, g.StandsFor definition? s :=
      List.forall_mem_cons.mpr ⟨hlooks.standsFor (by rw [hincoming]; rfl), hbehind⟩
    have horder' : (node.step api [] :: later).map (·.nodeId) = node.id :: rest :=
      congrArg (node.id :: ·) hids
    have hfollows : (node.step api [] :: later).IsChain g.Follows := by
      have hchain' : g.IsChain ([] ++ (node.step api []).nodeId :: rest) := hchain
      exact isChain_follows_of_planFrom hchain' hlater
    refine ⟨horder', hall, fun first hfirst => ?_, hfollows, (node.id :: rest).flatMap g.incoming,
      hchain.perm_flatMap_incoming, horder' ▸ mapM_parsed?_of_standsFor hall⟩
    obtain rfl : node.step api [] = first := by simpa using hfirst
    rfl
  · intro e he
    rw [Graph.plan, bind_eq_error_iff] at he
    rcases he with herror | ⟨steps, -, ⟨⟩⟩
    obtain ⟨node, hnode⟩ := hchain.exists_node? List.mem_cons_self
    obtain rfl : node.id = a := by simpa using List.find?_some hnode
    rcases planFrom_error_cases hnode herror with hnot | ⟨_, _, ⟨⟩, -⟩ | ⟨s, fields', hs, hbehind⟩
    · exact hnot
    · have hchain' : g.IsChain ([] ++ s.nodeId :: rest) := hs ▸ hchain
      exact not_misplaced_of_planFrom hchain' hbehind

/-- The plan of the two calls takes over their one mapping. -/
theorem pair_plan_of_order_eq_ok :
    Pair.graph.order = .ok ["list", "show"] ∧
      ∃ p, Pair.graph.plan Pair.api? ["list", "show"] = .ok p ∧
        p.steps.IsChain Pair.graph.Follows ∧
        p.steps.map (·.mappings) = [[], [⟨[.field "id"], [.field "id"]⟩]] := by
  have horder : Pair.graph.order = .ok ["list", "show"] := by decide +kernel
  obtain ⟨p, hp, hmappings⟩ : ∃ p, Pair.graph.plan Pair.api? ["list", "show"] = .ok p ∧
      p.steps.map (·.mappings) = [[], [⟨[.field "id"], [.field "id"]⟩]] :=
    ⟨_, by with_unfolding_all rfl, rfl⟩
  obtain ⟨-, -, -, hfollows, -⟩ := (plan_of_order_eq_ok horder).1 p hp
  exact ⟨horder, p, hp, hfollows, hmappings⟩

end Graph

end CallChain
