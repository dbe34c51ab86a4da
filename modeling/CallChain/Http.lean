import CallChain.Json

/-!
# Calls

What goes out to a service and what comes back.

* `Method`: the request methods, with `Method.text`.
* `Request`, `Response`: a call and its answer; `Response.isSuccess`.
* `Call`: the ability to make calls, in a monad of the user's choice.
-/

set_option autoImplicit false

namespace CallChain

/-- **The method of a request.** -/
inductive Method where
  | get
  | post
  | put
  | patch
  | delete
  | head
  | options
deriving DecidableEq, Repr, Inhabited

/-- The name of a method. -/
def Method.text : Method → String
  | .get => "GET"
  | .post => "POST"
  | .put => "PUT"
  | .patch => "PATCH"
  | .delete => "DELETE"
  | .head => "HEAD"
  | .options => "OPTIONS"

/-- All methods, in the order in which messages list them. -/
def Method.all : List Method := [.get, .post, .put, .patch, .delete, .head, .options]

/-- **A call to be made**: the path has no placeholders left. -/
structure Request where
  method : Method
  path : String
  query : List (String × String) := []
  body : Option Json := none
deriving Inhabited

/-- The answer to a call. -/
structure Response where
  status : UInt16
  body : Json
deriving Inhabited

/-- Whether the status says that the call succeeded. -/
def Response.isSuccess (r : Response) : Bool := 200 ≤ r.status && r.status < 300

/-- **The ability to make calls.** A call ends with an answer or with the text of a failure on the
way; everything else that a call may do is up to the monad. -/
abbrev Call (m : Type → Type) := Request → m (Except String Response)

end CallChain
