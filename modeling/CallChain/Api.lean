import CallChain.Http
import CallChain.Text.Blank

/-!
# API definitions

What is known of one operation of a service: method and path template, the parameters it takes and
the schemas of its responses.

* `Location`, `Parameter`: what a call may pass and where; `Parameter.isRequired`.
* `ApiDefinition`: the whole definition; `ApiDefinition.parameter?`,
  `ApiDefinition.successResponse?`.
-/

set_option autoImplicit false

namespace CallChain

/-- Where a parameter is put. -/
inductive Location where
  | path
  | query
  | body
deriving DecidableEq, Repr, Inhabited

/-- The name of a location. -/
def Location.text : Location → String
  | .path => "path"
  | .query => "query"
  | .body => "body"

/-- **A parameter of an operation.** -/
structure Parameter where
  name : String
  location : Location
  /-- Whether it is declared as required. -/
  required : Bool := false
  schema : Json := .obj []
deriving Inhabited

/-- Whether a call needs the parameter: a placeholder of the path cannot be left out. -/
def Parameter.isRequired (p : Parameter) : Bool := p.required || p.location == .path

/-- **The definition of an operation.** -/
structure ApiDefinition where
  id : String
  method : Method
  /-- The path template, with names of path parameters in braces. -/
  path : String
  summary : Option String := none
  parameters : List Parameter := []
  /-- Schemas by status code, in the order of the codes as texts. -/
  responses : Members := []
deriving Inhabited

/-- The number that a status code is written as: digits, perhaps after a plus, within sixteen
bits; blanks around it do not count. -/
def statusCode? (text : String) : Option Nat :=
  let trimmed := Text.trimChars text.toList
  let ds : List Char :=
    match trimmed with
    | '+' :: rest => rest
    | cs => cs
  if ds.isEmpty || !ds.all Char.isDigit then none
  else
    let n := ds.foldl (fun n d => n * 10 + (d.toNat - '0'.toNat)) 0
    if n < Nat.pow 2 16 then some n else none

namespace ApiDefinition

/-- The first parameter of a name. -/
def parameter? (api : ApiDefinition) (name : String) : Option Parameter :=
  api.parameters.find? (·.name == name)

/-- The responses that stand for success, with their codes. -/
def successes (api : ApiDefinition) : List (Nat × Json) :=
  api.responses.filterMap (fun (code, schema) =>
    match statusCode? code with
    | some n => if 200 ≤ n && n < 300 then some (n, schema) else none
    | none => none)

/-- The first of the entries with the least code. -/
def leastCode : List (Nat × Json) → Option (Nat × Json)
  | [] => none
  | r :: rest =>
    match leastCode rest with
    | some s => if s.1 < r.1 then some s else some r
    | none => some r

/-- **The response that stands for success**: the one with the least code from 200 to 299. -/
def successResponse? (api : ApiDefinition) : Option (Nat × Json) := leastCode api.successes

end ApiDefinition

end CallChain
