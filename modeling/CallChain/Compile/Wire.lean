import CallChain.Compile
import CallChain.Graph.Wire
import CallChain.Tool.Wire

/-!
# Compilations on the wire

* `CompilerConfig.decoder`, `CompileRequest.decoder`, `ErrorReport.decoder`.
* `CompileResponse.decoder`: a tool if it can be read as one, else an error.
* The documents beside them.
-/

set_option autoImplicit false

namespace CallChain

namespace CompilerConfig

/-- How a compilation is done; every part has a default. -/
def decoder : Decoder CompilerConfig :=
  Decoder.record "struct CompilerConfig"
    (CompilerConfig.mk <$> Fields.optional "enhance" Decoder.bool false
      <*> Fields.optional "lookup_concurrency" Decoder.count 8)

/-- How a compilation is done. -/
def document (c : CompilerConfig) : Document := .record [
  ("enhance", .value (.bool c.enhance)),
  ("lookup_concurrency", .nat c.lookupConcurrency.toNat)]

end CompilerConfig

namespace CompileRequest

/-- A request; its definitions may be missing. -/
def decoder : Decoder CompileRequest :=
  Decoder.record "struct CompileRequest"
    (CompileRequest.mk <$> Fields.required "graph" Graph.decoder
      <*> Fields.optional "apiDefinitions"
        ((Decoder.pairs ApiDefinition.decoder).map Entries.ofPairs) [])

/-- A request. -/
def document (r : CompileRequest) : Document := .record [
  ("graph", r.graph.document),
  ("apiDefinitions", .record (r.apis.map (fun (name, api) => (name, api.document))))]

end CompileRequest

namespace ErrorReport

/-- An error as a client sees it. -/
def decoder : Decoder ErrorReport :=
  Decoder.record "struct ErrorPayload"
    (ErrorReport.mk <$> Fields.required "kind" Decoder.string
      <*> Fields.required "message" Decoder.string
      <*> Fields.optional "nodeId" (Decoder.option Decoder.string) none)

/-- An error as a client sees it; a missing node is left out. -/
def document (e : ErrorReport) : Document := .record <|
  [("kind", .str e.kind), ("message", .str e.message)]
    ++ Document.optional "nodeId" (e.nodeId?.map .str)

end ErrorReport

namespace CompileResponse

/-- **An answer**: a tool if it can be read as one, an error if it can be read as one of those. -/
def decoder : Decoder CompileResponse := fun dialect s =>
  let tool : Decoder Tool :=
    Decoder.record "struct CompileResponse" (Fields.required "tool" Tool.decoder)
  let report : Decoder ErrorReport :=
    Decoder.record "struct CompileResponse" (Fields.required "error" ErrorReport.decoder)
  match tool dialect s, report dialect s with
  | .ok t, _ => .ok (.tool t)
  | .error _, .ok e => .ok (.error e)
  | .error _, .error _ =>
    .error ⟨.refused "data did not match any variant of untagged enum CompileResponse", none⟩

/-- An answer, by what it is. -/
def document : CompileResponse → Document
  | .tool t => .record [("tool", t.document)]
  | .error e => .record [("error", e.document)]

end CompileResponse

end CallChain
