import CallChain.Proofs.Schema.Keywords
import CallChain.Proofs.Tool.Wire
import CallChain.Proofs.Verification.Progress
import CallChain.Proofs.Verification.Sessions

/-!
# What a verification says of a tool

The verdict on a test case is the verdict on a direct run of the tool against a fresh caller
(`CallChain.Tool.Storable.verify_agrees_with_invoke`). What runs in a context is not the tool but
what was read from its text; that this is the tool is a matter of
`CallChain.Tool.Storable.decodeText_eq_ok`. Every tool that was read or compiled can be stored
(`CallChain.Tool.yields_decoder`, `CallChain.Graph.storable_of_compile`). That the run in a session
with a limit is a direct run is a matter of `CallChain.Connection.OnlyCuts`.

Verdicts are given in two ways: by running the cases one after another (`CallChain.verify`), and by
running them at the same time as tasks, in any order that the permits allow
(`CallChain.Batch.Returns`). They are the same up to the time that cases take, so the verdict on a
case depends neither on the other cases, nor on the order of the cases or of the moves, nor on the
number of permits.
-/

set_option autoImplicit false

namespace CallChain

/-! ### Verdicts on answers -/

namespace Tool

variable {t : Tool} {connection : Connection} {config config' : VerifierConfig}
  {cases cases' : List TestCase}

end Tool

end CallChain
