import CallChain.Tool
import CallChain.Plan.Wire

/-!
# Tools on the wire

* `Uuid.decoder`: an id in any of its written forms.
* `ToolStep.decoder`, `Tool.decoder`, `Metadata.decoder`.
* `ToolStep.document`, `Tool.document`, `Metadata.document`: overrides and mappings are left out
  when there are none.
-/

set_option autoImplicit false

namespace CallChain

/-- An id in any of its written forms. -/
def Uuid.decoder : Decoder Uuid := fun _ s =>
  let read (text : String) (place? : Option Mark) : Except DecodeError Uuid :=
    match Uuid.parse text with
    | .ok u => .ok u
    | .error e => .error ⟨.refused e.message, place?⟩
  match s with
  | .scalar (.str text) span => read text (some span.stop)
  | .plain text => read text none
  | other => .error (other.unexpected "a formatted UUID string")

namespace ToolStep

/-- A call of a tool. -/
def decoder : Decoder ToolStep :=
  Decoder.record "struct ToolStep"
    (ToolStep.mk <$> Fields.required "nodeId" Decoder.string
      <*> Fields.required "apiId" Decoder.string
      <*> Fields.required "method" Method.decoder
      <*> Fields.required "path" Decoder.string
      <*> Fields.required "parameters" (Decoder.list Parameter.decoder)
      <*> Fields.optional "overrides" Decoder.freeMembers []
      <*> Fields.optional "mappings" (Decoder.list (ParsedMapping.decoder "struct StepMapping")) [])

/-- A call of a tool. -/
def document (s : ToolStep) : Document := .record <|
  [("nodeId", .str s.nodeId), ("apiId", .str s.apiId), ("method", .str s.method.text),
    ("path", .str s.path), ("parameters", .list (s.parameters.map Parameter.document))]
    ++ Document.membersUnlessEmpty "overrides" s.overrides
    ++ Document.listUnlessEmpty "mappings" (s.mappings.map ParsedMapping.document)

end ToolStep

namespace Tool

/-- A tool, of which all fields must be there. -/
def decoder : Decoder Tool :=
  Decoder.record "struct GeneratedTool"
    (Tool.mk <$> Fields.required "id" Uuid.decoder
      <*> Fields.required "name" Decoder.string
      <*> Fields.required "description" Decoder.string
      <*> Fields.required "inputSchema" Decoder.any
      <*> Fields.required "outputSchema" Decoder.any
      <*> Fields.required "steps" (Decoder.list ToolStep.decoder))

/-- A tool. -/
def document (t : Tool) : Document := .record [
  ("id", .str t.id.text),
  ("name", .str t.name),
  ("description", .str t.description),
  ("inputSchema", .value t.inputSchema),
  ("outputSchema", .value t.outputSchema),
  ("steps", .list (t.steps.map ToolStep.document))]

end Tool

namespace Metadata

/-- A name and a description. -/
def decoder : Decoder Metadata :=
  Decoder.record "struct ToolMetadata"
    (Metadata.mk <$> Fields.required "name" Decoder.string
      <*> Fields.required "description" Decoder.string)

/-- A name and a description. -/
def document (m : Metadata) : Document :=
  .record [("name", .str m.name), ("description", .str m.description)]

end Metadata

end CallChain
