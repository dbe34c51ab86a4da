import CallChain.Http
import CallChain.Json.Decoder

/-!
# Calls on the wire

* `Method.decoder`: a method in upper or in lower case.
* `Request.decoder`, `Request.document`: a recorded call.
-/

set_option autoImplicit false

namespace CallChain

/-- The two spellings of every method. -/
def Method.spellings : List (String × Method) :=
  Method.all.flatMap (fun m => [(m.text, m), (String.ofList (m.text.toList.map Char.toLower), m)])

/-- A method, all in upper or all in lower case. -/
def Method.decoder : Decoder Method := Decoder.variant Method.spellings

namespace Request

/-- A call; a body that is null is none. -/
def decoder : Decoder Request :=
  Decoder.record "struct HttpRequest"
    (Request.mk <$> Fields.required "method" Method.decoder
      <*> Fields.required "path" Decoder.string
      <*> Fields.optional "query" (Decoder.list (Decoder.pair Decoder.string Decoder.string)) []
      <*> Fields.optional "body" (Decoder.option Decoder.any) none)

/-- A call with all of its fields. -/
def document (r : Request) : Document := .record [
  ("method", .str r.method.text),
  ("path", .str r.path),
  ("query", .list (r.query.map (fun (k, v) => .list [.str k, .str v]))),
  ("body", .value (r.body.getD .null))]

end Request

end CallChain
