import CallChain.Proofs.Tool.Origin

/-!
# Stored requests and answers

What was written of a graph, a definition, a plan, a request to compile or the answer to it is read
as the same (`CallChain.Graph.Canonical.restores`, `CallChain.ApiDefinition.Canonical.restores`,
`CallChain.Plan.Storable.restores`, `CallChain.CompileRequest.Canonical.restores`,
`CallChain.CompileResponse.Storable.restores`), and whatever is read is fit to be written.

Parts that are left out are the ones to look at: the reader puts a default in their place, and it
has to be what was left out. An answer is not marked as a tool or an error; it is read as a tool
first, so nothing that was written of an error may be readable as a tool.
-/

set_option autoImplicit false

namespace CallChain

/-! ### Graphs -/

theorem Mapping.restores (m : Mapping) : Mapping.decoder.Restores m.document m := by
  refine Decoder.restores_record (List.Sublist.refl ["from", "to"]) (by decide) ?_
  exact ((Fields.restores_pure Mapping.mk).ap
    (Fields.restores_required (by simp) (Decoder.restores_string m.source))).ap
    (Fields.restores_required (by simp) (Decoder.restores_string m.target))

theorem Node.restores {n : Node} (h : (Json.obj n.overrides).Canonical) :
    Node.decoder.Restores n.document n := by
  refine Decoder.restores_record ?_ (by decide) ?_
  · simp only [List.map_append, Document.map_fst_membersUnlessEmpty, List.map_cons, List.map_nil]
    split_ifs <;> decide
  · exact (((Fields.restores_pure Node.mk).ap
      (Fields.restores_required (by simp) (Decoder.restores_string n.id))).ap
      (Fields.restores_required (by simp) (Decoder.restores_string n.api))).ap
      (Fields.restores_membersUnlessEmpty h (by simp +contextual)
        (by simp +contextual [Document.membersUnlessEmpty]))

theorem Edge.restores (e : Edge) : Edge.decoder.Restores e.document e := by
  refine Decoder.restores_record ?_ (by decide) ?_
  · simp only [List.map_append, Document.map_fst_listUnlessEmpty, List.map_cons, List.map_nil]
    split_ifs <;> decide
  · exact (((Fields.restores_pure Edge.mk).ap
      (Fields.restores_required (by simp) (Decoder.restores_string e.source))).ap
      (Fields.restores_required (by simp) (Decoder.restores_string e.target))).ap
      (Fields.restores_listUnlessEmpty (fun m _ => m.restores) (by simp +contextual)
        (by simp +contextual [Document.listUnlessEmpty]))

/-- **A graph is read as it was written.** -/
theorem Graph.Canonical.restores {g : Graph} (h : g.Canonical) :
    Graph.decoder.Restores g.document g := by
  have hnodes : (Decoder.list Node.decoder).Restores (.list (g.nodes.map Node.document)) g.nodes :=
    Decoder.restores_list fun n hn => Node.restores (h n hn)
  have hedges : (Decoder.list Edge.decoder).Restores (.list (g.edges.map Edge.document)) g.edges :=
    Decoder.restores_list fun e _ => e.restores
  refine Decoder.restores_record ?_ (by decide) ?_
  · simp only [List.map_append, Document.map_fst_optional, List.map_cons, List.map_nil]
    split_ifs <;> decide
  · exact (((((Fields.restores_pure Graph.mk).ap
      (Fields.restores_required (by simp) (Decoder.restores_string g.id))).ap
      (Fields.restores_required (by simp) (Decoder.restores_string g.name))).ap
      (Fields.restores_stringUnlessMissing (by simp +contextual)
        (by simp +contextual [Document.optional]))).ap
      (Fields.restores_required (by simp) hnodes)).ap
      (Fields.restores_optional (by simp) hedges)

/-! ### Definitions -/

/-- **A definition is read as it was written.** -/
theorem ApiDefinition.Canonical.restores {api : ApiDefinition} (h : api.Canonical) :
    ApiDefinition.decoder.Restores api.document api := by
  have hparameters : (Decoder.list Parameter.decoder).Restores
      (.list (api.parameters.map Parameter.document)) api.parameters :=
    Decoder.restores_list fun p hp => Parameter.restores (h.parameters p hp)
  refine Decoder.restores_record ?_ (by decide) ?_
  · simp only [List.map_append, Document.map_fst_optional, List.map_cons, List.map_nil]
    split_ifs <;> decide
  · exact ((((((Fields.restores_pure ApiDefinition.mk).ap
      (Fields.restores_required (by simp) (Decoder.restores_string api.id))).ap
      (Fields.restores_required (by simp) api.method.restores)).ap
      (Fields.restores_required (by simp) (Decoder.restores_string api.path))).ap
      (Fields.restores_stringUnlessMissing (by simp +contextual)
        (by simp +contextual [Document.optional]))).ap
      (Fields.restores_optional (by simp) hparameters)).ap
      (Fields.restores_optional (by simp) (Decoder.restores_freeMembers h.responses))

/-! ### Plans -/

/-- **A step of a plan that can be written.** -/
structure PlanStep.Storable (s : PlanStep) : Prop where
  api : s.api.Canonical
  overrides : (Json.obj s.overrides).Canonical
  mappings : ∀ m ∈ s.mappings, m.Storable

theorem PlanStep.Storable.restores {s : PlanStep} (h : s.Storable) :
    PlanStep.decoder.Restores s.document s := by
  have hmappings : (Decoder.list (ParsedMapping.decoder "struct ResolvedMapping")).Restores
      (.list (s.mappings.map ParsedMapping.document)) s.mappings :=
    Decoder.restores_list fun m hm => (h.mappings m hm).restores _
  refine Decoder.restores_record (List.Sublist.refl ["node_id", "api", "overrides", "mappings"])
    (by decide) ?_
  exact ((((Fields.restores_pure PlanStep.mk).ap
    (Fields.restores_required (by simp) (Decoder.restores_string s.nodeId))).ap
    (Fields.restores_required (by simp) h.api.restores)).ap
    (Fields.restores_required (by simp) (Decoder.restores_freeMembers h.overrides))).ap
    (Fields.restores_required (by simp) hmappings)

theorem PlanStep.yields_decoder : PlanStep.decoder.Yields PlanStep.Storable := by
  have hmappings := (ParsedMapping.yields_decoder "struct ResolvedMapping").list
  refine Decoder.yields_record (((((Fields.yields_pure ?_).ap
    (Fields.yields_required (Decoder.yields_true _))).ap
    (Fields.yields_required ApiDefinition.yields_decoder)).ap
    (Fields.yields_required Decoder.yields_freeMembers)).ap
    (Fields.yields_required hmappings))
  exact fun nodeId _ api hapi overrides hoverrides mappings hmappings =>
    ⟨hapi, hoverrides, hmappings⟩

/-- **A plan that can be written.** -/
def Plan.Storable (p : Plan) : Prop := ∀ s ∈ p.steps, s.Storable

/-- **A plan is read as it was written**; null is written for a missing description. -/
theorem Plan.Storable.restores {p : Plan} (h : p.Storable) :
    Plan.decoder.Restores p.document p := by
  have hsteps : (Decoder.list PlanStep.decoder).Restores
      (.list (p.steps.map PlanStep.document)) p.steps :=
    Decoder.restores_list fun s hs => (h s hs).restores
  have hdescription : (Decoder.option Decoder.string).Restores
      ((p.description.map Document.str).getD (.value .null)) p.description := by
    cases p.description with
    | none => exact Decoder.restores_option_null _
    | some text => exact (Decoder.restores_string text).option nofun
  refine Decoder.restores_record
    (List.Sublist.refl ["graph_id", "graph_name", "description", "steps"]) (by decide) ?_
  exact ((((Fields.restores_pure Plan.mk).ap
    (Fields.restores_required (by simp) (Decoder.restores_string p.graphId))).ap
    (Fields.restores_required (by simp) (Decoder.restores_string p.graphName))).ap
    (Fields.restores_optional (by simp) hdescription)).ap
    (Fields.restores_required (by simp) hsteps)

theorem Plan.yields_decoder : Plan.decoder.Yields Plan.Storable := by
  refine Decoder.yields_record (((((Fields.yields_pure ?_).ap
    (Fields.yields_required (Decoder.yields_true _))).ap
    (Fields.yields_required (Decoder.yields_true _))).ap
    (Fields.yields_optional (Decoder.yields_true _) trivial)).ap
    (Fields.yields_required PlanStep.yields_decoder.list))
  exact fun graphId _ graphName _ description _ steps hsteps => hsteps

/-! ### Compilations -/

/-- **A request is read as it was written.** -/
theorem CompileRequest.Canonical.restores {r : CompileRequest} (h : r.Canonical) :
    CompileRequest.decoder.Restores r.document r := by
  have hapis : ((Decoder.pairs ApiDefinition.decoder).map Entries.ofPairs).Restores
      (.record (r.apis.map fun p => (p.1, p.2.document))) r.apis :=
    Decoder.restores_table h.ordered fun p hp => (h.apis p hp).restores
  refine Decoder.restores_record (List.Sublist.refl ["graph", "apiDefinitions"]) (by decide) ?_
  exact ((Fields.restores_pure CompileRequest.mk).ap
    (Fields.restores_required (by simp) h.graph.restores)).ap
    (Fields.restores_optional (by simp) hapis)

theorem ErrorReport.restores (e : ErrorReport) : ErrorReport.decoder.Restores e.document e := by
  refine Decoder.restores_record ?_ (by decide) ?_
  · simp only [List.map_append, Document.map_fst_optional, List.map_cons, List.map_nil]
    split_ifs <;> decide
  · exact (((Fields.restores_pure ErrorReport.mk).ap
      (Fields.restores_required (by simp) (Decoder.restores_string e.kind))).ap
      (Fields.restores_required (by simp) (Decoder.restores_string e.message))).ap
      (Fields.restores_stringUnlessMissing (by simp +contextual)
        (by simp +contextual [Document.optional]))

namespace CompileResponse

/-- **An answer that can be written**: if it is a tool, that can be. -/
def Storable : CompileResponse → Prop
  | .tool t => t.Storable
  | .error _ => True

/-- **An answer is read as it was written.** -/
theorem Storable.restores {r : CompileResponse} (h : r.Storable) :
    CompileResponse.decoder.Restores r.document r := by
  intro dialect s hs
  cases r with
  | tool t =>
    have hstorable : t.Storable := h
    have htool : (Decoder.record "struct CompileResponse"
        (Fields.required "tool" Tool.decoder)).Restores (.record [("tool", t.document)]) t :=
      Decoder.restores_record (List.Sublist.refl ["tool"]) (by decide)
        (Fields.restores_required (by simp) hstorable.restores)
    simp only [decoder, htool dialect s hs]
  | error e =>
    have hreport : (Decoder.record "struct CompileResponse"
        (Fields.required "error" ErrorReport.decoder)).Restores
          (.record [("error", e.document)]) e :=
      Decoder.restores_record (List.Sublist.refl ["error"]) (by decide)
        (Fields.restores_required (by simp) e.restores)
    have hnodup : ([("error", e.document)].map (·.1)).Nodup := List.nodup_singleton _
    have hlacks : "tool" ∉ [("error", e.document)].map (·.1) := by simp
    obtain ⟨refusal, hrefusal⟩ := Decoder.exists_record_required_eq_error
      "struct CompileResponse" Tool.decoder hnodup hlacks dialect hs
    simp only [decoder, hrefusal, hreport dialect s hs]

theorem yields_decoder : decoder.Yields Storable := by
  have htool : (Decoder.record "struct CompileResponse"
      (Fields.required "tool" Tool.decoder)).Yields Tool.Storable :=
    Decoder.yields_record (Fields.yields_required Tool.yields_decoder)
  intro dialect s r h
  simp only [decoder] at h
  split at h
  · rename_i t ht
    cases h
    exact htool dialect s t ht
  · cases h
    trivial
  · cases h

end CompileResponse

end CallChain
