import CallChain.Routes
import CallChain.Http.Wire

/-!
# Route tables on the wire

* `Route.decoder`, `Route.document`: a canned response.
* `routesDecoder`, `routesDocument`: the routes of a table; its log is not written.
-/

set_option autoImplicit false

namespace CallChain

/-- A canned response: empty, at once and with status 200 unless said otherwise. -/
def Route.decoder : Decoder Route :=
  Decoder.record "struct Route"
    (Route.mk <$> Fields.required "method" Method.decoder
      <*> Fields.required "path" Decoder.string
      <*> Fields.optional "status" Decoder.word16 200
      <*> Fields.optional "body" Decoder.any .null
      <*> Fields.optional "delay_ms" Decoder.word64 0)

/-- A canned response with all of its fields. -/
def Route.document (r : Route) : Document := .record [
  ("method", .str r.method.text),
  ("path", .str r.path),
  ("status", .nat r.status.toNat),
  ("body", .value r.body),
  ("delay_ms", .nat r.delay.toNat)]

/-- The routes of a table. -/
def routesDecoder : Decoder (List Route) :=
  Decoder.record "struct RouteTable" (Fields.required "routes" (Decoder.list Route.decoder))

/-- The routes of a table. -/
def routesDocument (routes : List Route) : Document :=
  .record [("routes", .list (routes.map Route.document))]

end CallChain
