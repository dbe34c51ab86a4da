import CallChain.Compile.Wire
import CallChain.Proofs.Compile.Stages
import CallChain.Proofs.Json.Decoded
import CallChain.Proofs.Plan.Contract
import CallChain.Proofs.Tool.Wire

/-!
# Where tools come from

A tool is read from a text or compiled from a graph, and in both cases it can be stored
(`CallChain.Tool.yields_decoder`, `CallChain.Graph.storable_of_compile`): its mappings have paths
that were read, and reading never gives an empty path. A compiled tool takes free values from the
graph and from the definitions, so these have to be in canonical form. They are when they come from
a text themselves, be it a request (`CallChain.CompileRequest.yields_decoder`) or a store of texts
(`CallChain.RemoteCatalog.canonical_of_lookup`).
-/

set_option autoImplicit false

namespace CallChain

/-! ### Decoded parts -/

/-- What is decoded from a text is of the kind that the decoder yields. -/
theorem Decoder.Yields.of_decodeText {α : Type} {d : Decoder α} {P : α → Prop} (hd : d.Yields P)
    {text : String} {a : α} (h : decodeText d text = .ok a) : P a := by
  simp only [decodeText] at h
  split at h
  · cases h
  · rename_i ha
    split at h
    · cases h
    · cases h
      exact hd _ _ _ ha

theorem FieldPath.yields_decoder : FieldPath.decoder.Yields fun p => p.Obtained ∧ p ≠ [] := by
  refine Decoder.yields_refine _ fun text p h => ?_
  split at h
  · rename_i hparse
    cases h
    exact ⟨.parsed hparse, ne_nil_of_parse_eq_ok hparse⟩
  · cases h

theorem ParsedMapping.yields_decoder (name : String) :
    (ParsedMapping.decoder name).Yields ParsedMapping.Storable := by
  refine Decoder.yields_record (((Fields.yields_pure ?_).ap
    (Fields.yields_required FieldPath.yields_decoder)).ap
    (Fields.yields_required FieldPath.yields_decoder))
  exact fun source hsource target htarget => ⟨hsource, htarget⟩

theorem Parameter.yields_decoder : Parameter.decoder.Yields fun p => p.schema.Canonical := by
  refine Decoder.yields_record (((((Fields.yields_pure ?_).ap
    (Fields.yields_required (Decoder.yields_true _))).ap
    (Fields.yields_field (Decoder.yields_true _) nofun)).ap
    (Fields.yields_optional (Decoder.yields_true _) trivial)).ap
    (Fields.yields_optional Decoder.yields_any ?_))
  · exact fun name _ location _ required _ schema hschema => hschema
  · exact Json.canonical_obj_nil

theorem ToolStep.yields_decoder : ToolStep.decoder.Yields ToolStep.Storable := by
  have hparameters := Parameter.yields_decoder.list
  have hmappings := (ParsedMapping.yields_decoder "struct StepMapping").list
  refine Decoder.yields_record ((((((((Fields.yields_pure ?_).ap
    (Fields.yields_required (Decoder.yields_true _))).ap
    (Fields.yields_required (Decoder.yields_true _))).ap
    (Fields.yields_required (Decoder.yields_true _))).ap
    (Fields.yields_required (Decoder.yields_true _))).ap
    (Fields.yields_required hparameters)).ap
    (Fields.yields_optional Decoder.yields_freeMembers Json.canonical_obj_nil)).ap
    (Fields.yields_optional hmappings (List.forall_mem_nil _)))
  exact fun nodeId _ apiId _ method _ path _ parameters hparameters overrides hoverrides mappings
    hmappings => ⟨hparameters, hoverrides, hmappings⟩

/-- **Every tool that is read can be stored.** -/
theorem Tool.yields_decoder : Tool.decoder.Yields Tool.Storable := by
  refine Decoder.yields_record (((((((Fields.yields_pure ?_).ap
    (Fields.yields_required (Decoder.yields_true _))).ap
    (Fields.yields_required (Decoder.yields_true _))).ap
    (Fields.yields_required (Decoder.yields_true _))).ap
    (Fields.yields_required Decoder.yields_any)).ap
    (Fields.yields_required Decoder.yields_any)).ap
    (Fields.yields_required ToolStep.yields_decoder.list))
  exact fun id _ name _ description _ input hinput output houtput steps hsteps =>
    ⟨hinput, houtput, hsteps⟩

/-- Other words make no difference. -/
theorem Tool.Storable.enhance {t : Tool} (h : t.Storable) (e : Enhancer) :
    (t.enhance e).Storable := by
  rw [Tool.enhance]
  split
  · exact h
  · dsimp only
    split
    · exact h
    · exact ⟨h.inputSchema, h.outputSchema, h.steps⟩

/-! ### Definitions and graphs -/

/-- **A definition in canonical form**: the schemas of its parameters and responses are. -/
structure ApiDefinition.Canonical (api : ApiDefinition) : Prop where
  parameters : ∀ p ∈ api.parameters, p.schema.Canonical
  responses : (Json.obj api.responses).Canonical

theorem ApiDefinition.yields_decoder : ApiDefinition.decoder.Yields ApiDefinition.Canonical := by
  refine Decoder.yields_record (((((((Fields.yields_pure ?_).ap
    (Fields.yields_required (Decoder.yields_true _))).ap
    (Fields.yields_required (Decoder.yields_true _))).ap
    (Fields.yields_required (Decoder.yields_true _))).ap
    (Fields.yields_optional (Decoder.yields_true _) trivial)).ap
    (Fields.yields_optional Parameter.yields_decoder.list (List.forall_mem_nil _))).ap
    (Fields.yields_optional Decoder.yields_freeMembers Json.canonical_obj_nil))
  exact fun id _ method _ path _ summary _ parameters hparameters responses hresponses =>
    ⟨hparameters, hresponses⟩

/-- **A graph in canonical form**: the overrides of its nodes are. -/
def Graph.Canonical (g : Graph) : Prop := ∀ n ∈ g.nodes, (Json.obj n.overrides).Canonical

theorem Node.yields_decoder : Node.decoder.Yields fun n => (Json.obj n.overrides).Canonical := by
  refine Decoder.yields_record ((((Fields.yields_pure ?_).ap
    (Fields.yields_required (Decoder.yields_true _))).ap
    (Fields.yields_required (Decoder.yields_true _))).ap
    (Fields.yields_optional Decoder.yields_freeMembers Json.canonical_obj_nil))
  exact fun id _ api _ overrides hoverrides => hoverrides

theorem Graph.yields_decoder : Graph.decoder.Yields Graph.Canonical := by
  refine Decoder.yields_record ((((((Fields.yields_pure ?_).ap
    (Fields.yields_required (Decoder.yields_true _))).ap
    (Fields.yields_required (Decoder.yields_true _))).ap
    (Fields.yields_optional (Decoder.yields_true _) trivial)).ap
    (Fields.yields_required Node.yields_decoder.list)).ap
    (Fields.yields_optional (Decoder.yields_true _) trivial))
  exact fun id _ name _ description _ nodes hnodes edges _ => hnodes

/-! ### Catalogs -/

/-- A catalog of definitions has no others. -/
theorem Catalog.mem_of_get?_ofList {apis : List ApiDefinition} {name : String}
    {api : ApiDefinition} (h : (ofList apis).get? name = some api) : api ∈ apis := by
  have hofList : ∀ p ∈ (ofList apis).definitions, p.2 ∈ apis := by
    refine List.foldlRecOn apis (motive := fun c : Catalog => ∀ p ∈ c.definitions, p.2 ∈ apis)
      insert (List.forall_mem_nil _) fun c hc added hadded p hp => ?_
    rcases Entries.eq_or_mem_of_mem_insert hp with rfl | hp
    · exact hadded
    · exact hc p hp
  exact hofList _ (Entries.mem_of_get?_eq_some h)

/-- What a store of texts gives was decoded. -/
theorem RemoteCatalog.canonical_of_lookup {c : RemoteCatalog} {name : String}
    {api : ApiDefinition} (h : c.lookup name = .ok (some api)) : api.Canonical := by
  rw [lookup] at h
  split at h
  · cases h
  · split at h
    · cases h
    · split at h
      · rename_i hdecode
        cases h
        exact ApiDefinition.yields_decoder.of_decodeText hdecode
      · cases h

/-- Every definition that was fetched was looked up under its name. -/
theorem lookup_of_mem_fetch {lookup : Lookup} {completed : List String}
    {definitions : Entries ApiDefinition} (h : fetch lookup completed = .ok definitions) :
    ∀ p ∈ definitions, lookup p.1 = .ok (some p.2) := by
  induction completed generalizing definitions with
  | nil =>
    cases h
    nofun
  | cons id rest ih =>
    rw [fetch] at h
    split at h
    · cases h
    · rename_i found? hfound
      obtain ⟨more, hmore, h⟩ := bind_eq_ok_iff.mp h
      cases found? with
      | none =>
        cases h
        exact ih hmore
      | some api =>
        cases h
        intro p hp
        rcases Entries.eq_or_mem_of_mem_insert hp with rfl | hp
        · exact hfound
        · exact ih hmore p hp

/-! ### Compiled tools -/

namespace ApiDefinition

theorem mem_of_leastCode_eq_some {l : List (ℕ × Json)} {r : ℕ × Json}
    (h : leastCode l = some r) : r ∈ l := by
  induction l with
  | nil => cases h
  | cons first rest ih =>
    rw [leastCode] at h
    split at h
    · rename_i s hs
      split_ifs at h
      · cases h
        exact List.mem_cons_of_mem _ (ih hs)
      · cases h
        exact List.mem_cons_self
    · cases h
      exact List.mem_cons_self

/-- The success response is one of the responses. -/
theorem exists_mem_responses_of_successResponse? {api : ApiDefinition} {code : ℕ} {schema : Json}
    (h : api.successResponse? = some (code, schema)) : ∃ text, (text, schema) ∈ api.responses := by
  obtain ⟨⟨text, schema'⟩, hmem, h⟩ := List.mem_filterMap.mp (mem_of_leastCode_eq_some h)
  dsimp only at h
  split at h
  · split_ifs at h
    cases h
    exact ⟨text, hmem⟩
  · cases h

end ApiDefinition

namespace Plan

/-- The schema of an input is in canonical form when the definition of the first step is. -/
theorem canonical_inputSchema {first : PlanStep} (h : first.api.Canonical) :
    (inputSchema first).Canonical := by
  have hproperties : (Json.ofPairs ((Graph.freeParameters first.api first.overrides).map
      fun p => (p.name, p.schema))).Canonical := by
    refine Json.canonical_ofPairs fun pair hpair => ?_
    obtain ⟨p, hp, rfl⟩ := List.mem_map.mp hpair
    exact h.parameters p (Graph.mem_freeParameters_iff.mp hp).1
  have hrequired : (Json.arr (((Graph.freeParameters first.api first.overrides).filter
      Parameter.isRequired).map fun p => Json.str p.name)).Canonical := by
    refine Json.canonical_arr_iff.mpr fun j hj => ?_
    obtain ⟨p, -, rfl⟩ := List.mem_map.mp hj
    trivial
  rw [inputSchema_eq, inputMembers]
  split
  · have hordered : ["properties", "type"].Pairwise (· < ·) := by decide
    exact ⟨hordered, hproperties, trivial, trivial⟩
  · have hordered : ["properties", "required", "type"].Pairwise (· < ·) := by decide
    exact ⟨hordered, hproperties, hrequired, trivial, trivial⟩

theorem canonical_of_outputSchema {last : PlanStep} (h : last.api.Canonical) {output : Json}
    (houtput : outputSchema last = .ok output) : output.Canonical := by
  rw [outputSchema] at houtput
  split at houtput
  · rename_i code schema hresponse
    cases houtput
    obtain ⟨text, hmem⟩ := ApiDefinition.exists_mem_responses_of_successResponse? hresponse
    exact (Json.canonical_obj_iff.mp h.responses).2 _ hmem
  · cases houtput

end Plan

namespace Graph

/-- The mappings of a step have paths that were read. -/
theorem storable_of_resolveMappings {previous : PlanStep} {node : Node} {api : ApiDefinition}
    {pairs : List (Edge × Mapping)} {mappings : List ParsedMapping}
    (h : resolveMappings previous node api pairs = .ok mappings) :
    ∀ m ∈ mappings, m.Storable := by
  rw [resolveMappings_eq_ok_iff] at h
  induction h with
  | nil => nofun
  | cons hpair _ ih =>
    have haccepts := accepts_of_resolveMapping_eq_ok hpair
    refine List.forall_mem_cons.mpr ⟨⟨⟨.parsed haccepts.parse_source, ?_⟩,
      ⟨.parsed haccepts.parse_target, ?_⟩⟩, ih⟩
    · exact FieldPath.ne_nil_of_parse_eq_ok haccepts.parse_source
    · exact FieldPath.ne_nil_of_parse_eq_ok haccepts.parse_target

variable {g : Graph} {definition? : String → Option ApiDefinition} {id : Uuid} {t : Tool}

/-- **What a step of a plan consists of**, along any order: a node that was looked up and mappings
that were read. -/
theorem exists_of_mem_planFrom_first {order : List String} {steps : List PlanStep}
    (h : planFrom g definition? none [] order = .ok steps) {s : PlanStep} (hs : s ∈ steps) :
    ∃ id node api mappings, g.LooksUp definition? id node api ∧ (∀ m ∈ mappings, m.Storable) ∧
      s = node.step api mappings := by
  rcases order with _ | ⟨a, rest⟩
  · cases h
    cases hs
  · obtain ⟨node, api, later, hlooks, hlater, rfl⟩ := planFrom_first_eq_ok_iff.mp h
    rcases List.mem_cons.mp hs with rfl | hs
    · exact ⟨a, node, api, [], hlooks, nofun, rfl⟩
    · obtain ⟨_, id, node, api, mappings, hlooks, hmappings, -, rfl⟩ :=
        exists_of_mem_planFrom hlater hs
      exact ⟨id, node, api, mappings, hlooks, storable_of_resolveMappings hmappings, rfl⟩

/-- **The tool of an order of nodes can be stored**, if the graph and the definitions are in
canonical form. -/
theorem storable_of_assemble (hg : g.Canonical)
    (hdefinition : ∀ name api, definition? name = some api → api.Canonical) {order : List String}
    (h : g.assemble definition? order id = .ok t) : t.Storable := by
  rw [assemble] at h
  obtain ⟨plan, hplan, h⟩ := bind_eq_ok_iff.mp h
  obtain ⟨⟨input, output⟩, hcontract, h⟩ := bind_eq_ok_iff.mp h
  cases h
  obtain ⟨steps, hsteps, rfl⟩ := plan_eq_ok_iff.mp (mapError_eq_ok_iff.mp hplan)
  obtain ⟨first, last, hfirst, hlast, rfl, houtput⟩ :=
    Plan.contract_eq_ok_iff.mp (mapError_eq_ok_iff.mp hcontract)
  have hstep : ∀ s ∈ steps, s.api.Canonical ∧ (ToolStep.ofPlanStep s).Storable := by
    intro s hs
    obtain ⟨a, node, api, mappings, hlooks, hmappings, rfl⟩ :=
      exists_of_mem_planFrom_first hsteps hs
    have hnode : node ∈ g.nodes := List.mem_of_find?_eq_some hlooks.node_eq
    have hapi : api.Canonical := hdefinition _ api hlooks.api_eq
    exact ⟨hapi, hapi.parameters, hg node hnode, hmappings⟩
  refine ⟨?_, ?_, fun s hs => ?_⟩
  · exact Plan.canonical_inputSchema (hstep first (List.mem_of_mem_head? hfirst)).1
  · exact Plan.canonical_of_outputSchema (hstep last (List.mem_of_getLast? hlast)).1 houtput
  · obtain ⟨planned, hplanned, rfl⟩ := List.mem_map.mp hs
    exact (hstep planned hplanned).2

/-- **Every tool compiled against definitions at hand can be stored.** -/
theorem storable_of_compileWith (hg : g.Canonical)
    (hdefinition : ∀ name api, definition? name = some api → api.Canonical)
    (h : g.compileWith definition? id = .ok t) : t.Storable := by
  obtain ⟨order, -, h⟩ := bind_eq_ok_iff.mp h
  exact storable_of_assemble hg hdefinition h

/-- **Every tool compiled against a catalog can be stored**, in whatever order the look-ups
complete and whatever an enhancer makes of it. -/
theorem storable_of_compile {config : CompilerConfig} {enhancer? : Option Enhancer}
    {lookup : Lookup} {completed : List String} (hg : g.Canonical)
    (hlookup : ∀ name api, lookup name = .ok (some api) → api.Canonical)
    (h : g.compile config enhancer? lookup completed id = .ok t) : t.Storable := by
  rw [Graph.compile] at h
  obtain ⟨order, -, h⟩ := bind_eq_ok_iff.mp h
  obtain ⟨definitions, hfetch, h⟩ := bind_eq_ok_iff.mp h
  obtain ⟨assembled, hassemble, h⟩ := bind_eq_ok_iff.mp h
  have hassembled : assembled.Storable := by
    refine storable_of_assemble hg (fun name api hapi => ?_) hassemble
    exact hlookup name api (lookup_of_mem_fetch (mapError_eq_ok_iff.mp hfetch) _
      (Entries.mem_of_get?_eq_some hapi))
  cases h
  split
  · exact hassembled.enhance _
  · exact hassembled

end Graph

namespace CompileRequest

/-- **A request in canonical form**, its definitions in the order of their names. -/
structure Canonical (r : CompileRequest) : Prop where
  graph : r.graph.Canonical
  ordered : Entries.Ordered r.apis
  apis : ∀ p ∈ r.apis, p.2.Canonical

theorem yields_decoder : CompileRequest.decoder.Yields Canonical := by
  refine Decoder.yields_record (((Fields.yields_pure ?_).ap
    (Fields.yields_required Graph.yields_decoder)).ap
    (Fields.yields_optional ApiDefinition.yields_decoder.table ⟨.nil, List.forall_mem_nil _⟩))
  exact fun graph hgraph apis hapis => ⟨hgraph, hapis.1, hapis.2⟩

variable {r : CompileRequest} {id : Uuid} {t : Tool}

/-- What is compiled from a request in canonical form can be stored. -/
theorem Canonical.storable_of_compile (hr : r.Canonical) {config : CompilerConfig}
    {enhancer? : Option Enhancer} (h : r.compile config enhancer? id = .ok t) : t.Storable := by
  refine Graph.storable_of_compile hr.graph (fun name api hlookup => ?_) h
  obtain ⟨⟨k, found⟩, hfound, rfl⟩ :=
    List.mem_map.mp (Catalog.mem_of_get?_ofList (Except.ok.inj hlookup))
  -- The definition has the name of the request for its id, and is else as it was.
  have hcanonical := hr.apis _ hfound
  exact ⟨hcanonical.parameters, hcanonical.responses⟩

/-- So can what is compiled against its definitions as they are. -/
theorem Canonical.storable_of_compileDirectly (hr : r.Canonical)
    (h : r.compileDirectly id = .ok t) : t.Storable :=
  Graph.storable_of_compileWith hr.graph
    (fun _ _ hapi => hr.apis _ (Entries.mem_of_get?_eq_some hapi)) h

end CompileRequest

end CallChain
