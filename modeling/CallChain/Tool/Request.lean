import CallChain.Tool
import CallChain.Schema.Conformance
import CallChain.Text.Percent
import CallChain.Text.Replace

/-!
# Requests of a tool

A call of a tool becomes a request in two steps. First each parameter gets its value: from the
input of the tool, over it from the fixed values of the call, over that from the response of the
call before. Then each value goes to where its parameter belongs.

* `ToolError`: why a tool stops, with `ToolError.message`.
* `ToolStep.values`: the values of the parameters.
* `ToolStep.request`: the request.
-/

set_option autoImplicit false

namespace CallChain

/-! ### Errors -/

/-- **Why a tool stops** before its last answer; steps count from zero. -/
inductive ToolError where
  | stepFailed (step : Nat) (status : UInt16)
  | invalidInput (reason : Schema.Nonconformance)
  | missingParameter (step : Nat) (parameter : String)
  | missingMappedValue (step : Nat) (path : FieldPath)
  | injectFailed (step : Nat) (error : InjectError)
  | transport (step : Nat) (reason : String)

namespace ToolError

/-- The wording of an error. -/
def message : ToolError → String
  | .stepFailed step status =>
    "step " ++ toString step ++ " returned status " ++ toString status.toNat
  | .invalidInput reason => "input rejected: " ++ reason.message
  | .missingParameter step parameter =>
    "step " ++ toString step ++ ": no value for parameter `" ++ parameter ++ "`"
  | .missingMappedValue step path =>
    "step " ++ toString step ++ ": `" ++ path.display ++ "` is absent from the previous response"
  | .injectFailed step error => "step " ++ toString step ++ ": " ++ error.message
  | .transport step reason => "step " ++ toString step ++ ": call failed: " ++ reason

/-- The name of the kind of an error. -/
def kind : ToolError → String
  | .stepFailed _ _ => "StepFailed"
  | .invalidInput _ => "InvalidInput"
  | .missingParameter _ _ => "MissingParameter"
  | .missingMappedValue _ _ => "MissingMappedValue"
  | .injectFailed _ _ => "InjectFailed"
  | .transport _ _ => "Transport"

end ToolError

namespace ToolStep

/-! ### Values -/

/-- What the input of the tool brings for the parameters. -/
def inputValues (s : ToolStep) (input : Json) : Members :=
  s.parameters.foldl (fun values p =>
    match input.member? p.name with
    | some v => Entries.insert p.name v values
    | none => values) []

/-- The values before any mapping: fixed values win over the input. -/
def givenValues (s : ToolStep) (input : Json) : Members :=
  s.overrides.foldl (fun values (name, v) => Entries.insert name v values) (s.inputValues input)

/-- Moves parts of a response into the values, mapping by mapping. -/
def applyMappings (step : Nat) (response : Json) :
    List ParsedMapping → Json → Except ToolError Json
  | [], values => .ok values
  | m :: rest, values =>
    match m.source.extract response with
    | none => .error (.missingMappedValue step m.source)
    | some part =>
      match m.target.inject part values with
      | (_, some e) => .error (.injectFailed step e)
      | (after, none) => applyMappings step response rest after

/-- **The values of the parameters.** The first call has no response before it. -/
def values (s : ToolStep) (step : Nat) (input : Json) (previous? : Option Json) :
    Except ToolError Members :=
  match previous? with
  | none => .ok (s.givenValues input)
  | some response =>
    match applyMappings step response s.mappings (.obj (s.givenValues input)) with
    | .error e => .error e
    | .ok (.obj members) => .ok members
    | .ok _ => .ok []

/-! ### Places -/

/-- A request under construction. -/
structure Draft where
  path : List Char
  query : List (String × String) := []
  body : Members := []

/-- The text of a value in a path or a query: a string as it is, anything else in compact form. -/
def scalarText : Json → String
  | .str s => s
  | other => other.compact

/-- The placeholder of a parameter. -/
def placeholder (name : String) : List Char := '\x7b' :: name.toList ++ ['\x7d']

/-- Puts the value of a parameter to where the parameter belongs. -/
def place (p : Parameter) (v : Json) (d : Draft) : Draft :=
  match p.location with
  | .path =>
    let text := Text.percentEncode Text.isUnreserved (scalarText v).toList
    { d with path := Text.replaceAll (placeholder p.name) text d.path }
  | .query =>
    match v with
    | .arr items => { d with query := d.query ++ items.map (fun item => (p.name, scalarText item)) }
    | other => { d with query := d.query ++ [(p.name, scalarText other)] }
  | .body => { d with body := Entries.insert p.name v d.body }

/-- The value of a name that is there and not null. -/
def present? (values : Members) (name : String) : Option Json :=
  (Entries.get? values name).filter (fun v => !v.isNull)

/-- Places the values of parameters in declared order; a required one must have a value. -/
def placeAll (step : Nat) (values : Members) : List Parameter → Draft → Except ToolError Draft
  | [], d => .ok d
  | p :: rest, d =>
    match present? values p.name with
    | some v => placeAll step values rest (place p v d)
    | none =>
      if p.isRequired then .error (.missingParameter step p.name)
      else placeAll step values rest d

/-- Whether a call sends a body: as soon as one parameter belongs there. -/
def hasBody (s : ToolStep) : Bool := s.parameters.any (·.location == .body)

/-- **The request of a call.** A placeholder that is left over counts as a missing parameter. -/
def request (s : ToolStep) (step : Nat) (input : Json) (previous? : Option Json) :
    Except ToolError Request := do
  let values ← s.values step input previous?
  let d ← placeAll step values s.parameters { path := s.path.toList }
  match placeholders d.path with
  | name :: _ => .error (.missingParameter step name)
  | [] => .ok {
      method := s.method
      path := String.ofList d.path
      query := d.query
      body := if s.hasBody then some (.obj d.body) else none }

end ToolStep

end CallChain
