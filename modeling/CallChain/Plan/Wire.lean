import CallChain.Plan
import CallChain.Api.Wire
import CallChain.Graph.Wire
import CallChain.Path.Wire

/-!
# Plans on the wire

* `ParsedMapping.decoder`, `PlanStep.decoder`, `Plan.decoder`.
* `ParsedMapping.document`, `PlanStep.document`, `Plan.document`: nothing is left out.
-/

set_option autoImplicit false

namespace CallChain

/-- A mapping whose paths are read at once; `name` is what messages call it. -/
def ParsedMapping.decoder (name : String) : Decoder ParsedMapping :=
  Decoder.record name
    (ParsedMapping.mk <$> Fields.required "from" FieldPath.decoder
      <*> Fields.required "to" FieldPath.decoder)

/-- A mapping. -/
def ParsedMapping.document (m : ParsedMapping) : Document :=
  .record [("from", m.source.document), ("to", m.target.document)]

/-- A step, of which all fields must be there. -/
def PlanStep.decoder : Decoder PlanStep :=
  Decoder.record "struct PlanStep"
    (PlanStep.mk <$> Fields.required "node_id" Decoder.string
      <*> Fields.required "api" ApiDefinition.decoder
      <*> Fields.required "overrides" Decoder.freeMembers
      <*> Fields.required "mappings"
        (Decoder.list (ParsedMapping.decoder "struct ResolvedMapping")))

/-- A step. -/
def PlanStep.document (s : PlanStep) : Document := .record [
  ("node_id", .str s.nodeId),
  ("api", s.api.document),
  ("overrides", .value (.obj s.overrides)),
  ("mappings", .list (s.mappings.map ParsedMapping.document))]

namespace Plan

/-- A plan; its description may be missing. -/
def decoder : Decoder Plan :=
  Decoder.record "struct ExecutionPlan"
    (Plan.mk <$> Fields.required "graph_id" Decoder.string
      <*> Fields.required "graph_name" Decoder.string
      <*> Fields.optional "description" (Decoder.option Decoder.string) none
      <*> Fields.required "steps" (Decoder.list PlanStep.decoder))

/-- A plan; a missing description is null. -/
def document (p : Plan) : Document := .record [
  ("graph_id", .str p.graphId),
  ("graph_name", .str p.graphName),
  ("description", (p.description.map Document.str).getD (.value .null)),
  ("steps", .list (p.steps.map PlanStep.document))]

end Plan

end CallChain
