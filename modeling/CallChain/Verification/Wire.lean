import CallChain.Tool.Wire
import CallChain.Verification

/-!
# Verification on the wire

* `Expectation.decoder`: one member, named for the kind of expectation; `Expectation.decoderOption`
  is the form that it has in a test case, where it may be missing.
* `Failure.decoder`: the kind is a member among the others.
* `TestCase.decoder`, `Verdict.decoder`, `VerifierConfig.decoder`, `VerifyRequest.decoder`.
* The documents beside them.
-/

set_option autoImplicit false

namespace CallChain

/-! ### Expectations -/

namespace Expectation

/-- The kinds of expectations. -/
inductive Kind where
  | equals
  | subset
  | predicate
  | stepFailure
deriving DecidableEq, Repr

/-- The kinds by their names. -/
def kinds : List (String × Kind) :=
  [("equals", .equals), ("subset", .subset), ("predicate", .predicate),
    ("step_failure", .stepFailure)]

/-- The step and the status of a failure. -/
def failureDecoder : Decoder Expectation :=
  Decoder.record "struct variant Expectation::StepFailure"
    (Expectation.stepFailure <$> Fields.required "step_index" Decoder.count
      <*> Fields.required "status_code" Decoder.word16)

/-- What a kind holds. -/
def contents : Kind → Decoder Expectation
  | .equals => Decoder.any.map .equals
  | .subset => Decoder.any.map .subset
  | .predicate => Decoder.string.map .predicate
  | .stepFailure => failureDecoder

/-- The objection to a kind that stands by itself. -/
def bareKind (name : String) (place : Mark) : DecodeError :=
  match Decoder.spelled kinds name place with
  | .error e => e
  | .ok .stepFailure => ⟨.invalidType .bareVariant "struct variant", none⟩
  | .ok _ => ⟨.invalidType .bareVariant "newtype variant", none⟩

/-- The objection that there is not exactly one member. -/
def notSingle : DecodeError := ⟨.invalidValue .map "map with a single key", none⟩

/-- **An expectation**: an object with one member. The failure of a step must be an object too. -/
def decoder : Decoder Expectation := fun dialect s =>
  match s with
  | .scalar (.str name) span => .error (bareKind name span.stop)
  | .record _ [(name, inner, _)] _ => do
    let kind ← Decoder.spelled kinds name.text name.settled
    match kind, inner with
    | .stepFailure, .record start members close =>
      failureDecoder dialect (.record start members close)
    | .stepFailure, other => .error (other.unexpected "struct variant")
    | kind, other => contents kind dialect other
  | .record _ _ _ => .error notSingle
  | other => .error (other.unexpected "string or map")

/-- **An expectation or null.** What stands first is looked at before it is asked whether it stands
alone. -/
def decoderOption : Decoder (Option Expectation) := fun dialect s =>
  match s with
  | .scalar .null _ => .ok none
  | .scalar (.str name) span => .error (bareKind name span.stop)
  | .plain text => if Decoder.plainNull text then .ok none else .error (bareKind text {})
  | .record _ ((name, inner, _) :: more) _ => do
    let kind ← Decoder.spelled kinds name.text name.settled
    let e ← contents kind dialect inner
    if more.isEmpty then return some e else throw notSingle
  | .record _ [] _ => .error notSingle
  | other => .error (other.unexpected "enum Expectation")

/-- An expectation. -/
def document : Expectation → Document
  | .equals value => .record [("equals", .value value)]
  | .subset value => .record [("subset", .value value)]
  | .predicate expression => .record [("predicate", .str expression)]
  | .stepFailure step status => .record [("step_failure", .record [
      ("step_index", .nat step.toNat), ("status_code", .nat status.toNat)])]

end Expectation

/-! ### Test cases -/

namespace TestCase

/-- A test case; a missing input is an empty object. -/
def decoder : Decoder TestCase :=
  Decoder.record "struct TestCase"
    (TestCase.mk <$> Fields.optional "input" Decoder.any (.obj [])
      <*> Fields.optional "expected" Expectation.decoderOption none)

/-- A test case. -/
def document (c : TestCase) : Document := .record <|
  ("input", .value c.input) :: Document.optional "expected" (c.expected?.map Expectation.document)

end TestCase

namespace VerifierConfig

/-- How test cases are run; every part has a default. -/
def decoder : Decoder VerifierConfig :=
  Decoder.record "struct VerifierConfig"
    (VerifierConfig.mk <$> Fields.optional "timeout_ms" Decoder.word64 60000
      <*> Fields.optional "max_parallel" Decoder.count 4)

/-- How test cases are run. -/
def document (c : VerifierConfig) : Document := .record [
  ("timeout_ms", .nat c.timeout.toNat), ("max_parallel", .nat c.maxParallel.toNat)]

end VerifierConfig

/-- A request to run test cases. -/
structure VerifyRequest where
  tool : Tool
  cases : List TestCase
deriving Inhabited

namespace VerifyRequest

/-- A request to run test cases. -/
def decoder : Decoder VerifyRequest :=
  Decoder.record "struct VerifyRequest"
    (VerifyRequest.mk <$> Fields.required "tool" Tool.decoder
      <*> Fields.required "testInputs" (Decoder.list TestCase.decoder))

/-- A request to run test cases. -/
def document (r : VerifyRequest) : Document := .record [
  ("tool", r.tool.document), ("testInputs", .list (r.cases.map TestCase.document))]

end VerifyRequest

/-! ### Verdicts -/

namespace Failure

/-- The fields of each kind of failure, with the name that messages use. -/
def variants : List (String × Fields Failure) := [
  ("StepFailed", .stepFailed <$> Fields.required "stepIndex" (Decoder.word "usize" (Nat.pow 2 64))
    <*> Fields.required "statusCode" Decoder.word16),
  ("Mismatch", .mismatch <$> Fields.required "reason" Decoder.string),
  ("TimedOut", .timedOut <$> Fields.required "timeoutMs" Decoder.word64),
  ("Crashed", .crashed <$> Fields.required "message" Decoder.string)]

/-- The fields of the kind that a source names. -/
def variantNamed (s : Source) : Except DecodeError (String × Fields Failure) :=
  match s with
  | .scalar (.str name) span => do
    let fields ← Decoder.spelled variants name span.stop
    return ("struct variant RunFailure::" ++ name, fields)
  | other => .error (other.unexpected "variant identifier")

/-- The fields of a failure from the items of a list, all of which must be taken. -/
def fromItems (name : String) (fields : Fields Failure) (dialect : Dialect)
    (items : List (Source × Mark)) : Except DecodeError Failure :=
  match fields.fromItems dialect 0 items with
  | .error (.inr e) => .error e
  | .error (.inl n) =>
    .error ⟨.invalidLength n (name ++ " with " ++ Decoder.elements fields.spellings.length), none⟩
  | .ok (failure, _, []) => .ok failure
  | .ok (_, taken, _) =>
    .error ⟨.invalidLength items.length (Decoder.elements taken ++ " in sequence"), none⟩

/-- **A failure**: its kind is the member `kind`, or the first item of a list. -/
def decoder : Decoder Failure := fun dialect s =>
  match s with
  | .record _ members close =>
    match members.find? (fun (name, _, _) => name.text = "kind") with
    | none => .error ⟨.missingField "kind", none⟩
    | some (_, tag, _) => do
      let (_, fields) ← variantNamed tag
      Decoder.fromObject fields dialect
        (members.filter (fun (name, _, _) => name.text ≠ "kind")) close
  | .list _ [] _ => .error ⟨.missingField "kind", none⟩
  | .list _ ((tag, _) :: rest) _ => do
    let (name, fields) ← variantNamed tag
    fromItems name fields dialect rest
  | other => .error (other.unexpected "internally tagged enum RunFailure")

/-- A failure, its kind first. -/
def document : Failure → Document
  | .stepFailed step status => .record [("kind", .str "StepFailed"), ("stepIndex", .nat step),
      ("statusCode", .nat status.toNat)]
  | .mismatch reason => .record [("kind", .str "Mismatch"), ("reason", .str reason)]
  | .timedOut timeout => .record [("kind", .str "TimedOut"), ("timeoutMs", .nat timeout.toNat)]
  | .crashed text => .record [("kind", .str "Crashed"), ("message", .str text)]

end Failure

/-- The name of a standing. -/
def Status.decoder : Decoder Status :=
  Decoder.variant (([.passed, .failed, .timedOut, .crashFailed] : List Status).map
    (fun s => (s.text, s)))

namespace Verdict

/-- A verdict; an output that is null reads as missing. -/
def decoder : Decoder Verdict :=
  Decoder.record "struct VerificationResult"
    (Verdict.mk <$> Fields.required "status" Status.decoder
      <*> Fields.required "elapsedMs" Decoder.word64
      <*> Fields.optional "output" (Decoder.option Decoder.any) none
      <*> Fields.optional "error" (Decoder.option Failure.decoder) none)

/-- The parts of a verdict that do not depend on the clock. -/
def outcomeFields (v : Verdict) : List (String × Document) :=
  Document.optional "output" (v.output?.map .value)
    ++ Document.optional "error" (v.failure?.map Failure.document)

/-- A verdict; a missing output or failure is left out, an output that is null is not. -/
def document (v : Verdict) : Document := .record <|
  ("status", .str v.status.text) :: ("elapsedMs", .nat v.elapsed.toNat) :: v.outcomeFields

end Verdict

end CallChain
