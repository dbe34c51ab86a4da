import CallChain.Api
import CallChain.Http.Wire

/-!
# API definitions on the wire

* `Parameter.decoder`, `Parameter.document`: the location is written as `in` and also read as
  `location`.
* `ApiDefinition.decoder`, `ApiDefinition.document`: a missing summary is left out.
-/

set_option autoImplicit false

namespace CallChain

/-- The name of a location. -/
def Location.decoder : Decoder Location :=
  Decoder.variant (([.path, .query, .body] : List Location).map (fun l => (l.text, l)))

namespace Parameter

/-- A parameter: optional and of any type unless said otherwise. -/
def decoder : Decoder Parameter :=
  Decoder.record "struct Parameter"
    (Parameter.mk <$> Fields.required "name" Decoder.string
      <*> Fields.field "in" ["location"] Location.decoder none
      <*> Fields.optional "required" Decoder.bool false
      <*> Fields.optional "schema" Decoder.any (.obj []))

/-- A parameter with all of its fields. -/
def document (p : Parameter) : Document := .record [
  ("name", .str p.name),
  ("in", .str p.location.text),
  ("required", .value (.bool p.required)),
  ("schema", .value p.schema)]

end Parameter

namespace ApiDefinition

/-- A definition. -/
def decoder : Decoder ApiDefinition :=
  Decoder.record "struct ApiDefinition"
    (ApiDefinition.mk <$> Fields.required "id" Decoder.string
      <*> Fields.required "method" Method.decoder
      <*> Fields.required "path" Decoder.string
      <*> Fields.optional "summary" (Decoder.option Decoder.string) none
      <*> Fields.optional "parameters" (Decoder.list Parameter.decoder) []
      <*> Fields.optional "responses" Decoder.freeMembers [])

/-- A definition; only its summary may be left out. -/
def document (api : ApiDefinition) : Document := .record <|
  [("id", .str api.id), ("method", .str api.method.text), ("path", .str api.path)]
    ++ Document.optional "summary" (api.summary.map .str)
    ++ [("parameters", .list (api.parameters.map Parameter.document)),
      ("responses", .value (.obj api.responses))]

end ApiDefinition

end CallChain
