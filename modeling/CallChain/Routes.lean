import CallChain.Http
import CallChain.Graph.Builder

/-!
# Canned responses

A route table answers calls from a list of routes, so that a tool can be run without a service. It
also keeps the requests that it received. Tables that were copied from each other keep them
together.

* `Route`, `respond`: one canned response and the answer to a request.
* `RouteTable`, `Logs`: routes with the place where their requests are kept.
-/

set_option autoImplicit false

namespace CallChain

/-- **A canned response** to calls of one method and path. -/
structure Route where
  method : Method
  path : String
  status : UInt16 := 200
  body : Json := .null
  /-- How many milliseconds the answer takes. -/
  delay : UInt64 := 0
deriving Inhabited

/-- Whether a route is for a request. -/
def Route.isFor (route : Route) (r : Request) : Bool :=
  route.method == r.method && route.path == r.path

/-- The answer to a request that no route is for. -/
def noRoute (r : Request) : Response where
  status := 404
  body := .obj [("error", .str ("no route for " ++ r.method.text ++ " " ++ r.path))]

/-- **The answer to a request** and how long it takes: the first route that is for it decides. -/
def respond (routes : List Route) (r : Request) : Response × UInt64 :=
  match routes.find? (·.isFor r) with
  | some route => (⟨route.status, route.body⟩, route.delay)
  | none => (noRoute r, 0)

/-! ### Tables -/

/-- **A route table**: its routes and the number of the log that it writes to. -/
structure RouteTable where
  routes : List Route := []
  log : Nat
deriving Inhabited

/-- The requests received so far, log by log, each in the order of arrival. -/
abbrev Logs := List (List Request)

namespace Logs

/-- Opens an empty log. -/
def openLog (logs : Logs) : Nat × Logs := (logs.length, logs ++ [[]])

/-- The requests in a log. -/
def requests (logs : Logs) (log : Nat) : List Request := logs[log]?.getD []

/-- Adds a request to a log. -/
def record (logs : Logs) (log : Nat) (r : Request) : Logs :=
  logs.modify log (· ++ [r])

end Logs

namespace RouteTable

/-- A table with one more route at the end; tables copied from it before do not get it. -/
def add (t : RouteTable) (route : Route) : RouteTable := { t with routes := t.routes ++ [route] }

/-- Sets how long the last route takes. -/
def delayLast (t : RouteTable) (delay : UInt64) : RouteTable :=
  { t with routes := updateLast (fun route => { route with delay := delay }) t.routes }

/-- The same routes with a log of their own. -/
def fresh (t : RouteTable) (logs : Logs) : RouteTable × Logs :=
  let (log, logs) := logs.openLog
  ({ t with log := log }, logs)

/-- Receives a request: logs it and answers. -/
def receive (t : RouteTable) (logs : Logs) (r : Request) : (Response × UInt64) × Logs :=
  (respond t.routes r, logs.record t.log r)

end RouteTable

end CallChain
