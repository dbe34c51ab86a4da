import CallChain.Path.Parser
import CallChain.Json.Decoder

/-!
# Field paths on the wire

* `FieldPath.decoder`, `FieldPath.document`: a path in written form.
-/

set_option autoImplicit false

namespace CallChain

/-- A path in written form; what is wrong with its text is the objection. -/
def FieldPath.decoder : Decoder FieldPath :=
  Decoder.refine Decoder.string (fun text =>
    match FieldPath.parse text with
    | .ok p => .ok p
    | .error e => .error e.message)

/-- A path in written form. -/
def FieldPath.document (p : FieldPath) : Document := .str p.display

end CallChain
