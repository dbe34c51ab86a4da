import CallChain.Routes

/-!
# Stand-in services

A stand-in service answers from canned responses. Time is simulated: an answer takes the time its
route says, and a session ends once it has waited longer than it may. Calls can also be made to
fail or to bring the session down.

* `Fault`, `Service`: what a service does with calls.
* `Session`: a run of calls, with the requests logged and the time waited; `Interruption` is what
  can end it early.
* `Connection`: any service as sessions see it; `Service.call` is that of a stand-in.
-/

set_option autoImplicit false

namespace CallChain

/-- What a fault does to a call. -/
inductive FaultEffect where
  /-- The call fails; each cause is explained by the next one. -/
  | failure (causes : List String)
  /-- The session crashes, with a text if there is one to show. -/
  | crash (text? : Option String)

/-- **A fault** that hits calls of one method and path before any route is looked at. -/
structure Fault where
  method : Method
  path : String
  effect : FaultEffect

/-- **A stand-in service.** -/
structure Service where
  routes : List Route
  faults : List Fault := []

/-- **What ends a session early.** -/
inductive Interruption where
  | timedOut
  | crashed (text? : Option String)
deriving DecidableEq, Repr

/-- What a session has seen: the requests that reached the routes and the milliseconds waited. -/
structure Traffic where
  requests : List Request := []
  waited : Nat := 0
deriving Inhabited

/-- **A run of calls** that may be interrupted. -/
abbrev Session := ExceptT Interruption (StateM Traffic)

namespace Session

/-- Waits. A session that has waited longer than its limit is over. -/
def wait (limit? : Option Nat) (time : Nat) : Session Unit := do
  if time = 0 then return
  modify (fun t => { t with waited := t.waited + time })
  let now ← get
  match limit? with
  | some limit => if limit < now.waited then throw .timedOut
  | none => return

/-- A session from its start: how it ended and what it has seen. -/
def runFresh {α : Type} (s : Session α) : Except Interruption α × Traffic :=
  (ExceptT.run s).run {}

end Session

/-- **A service as sessions see it**: how it answers calls in a session that may be limited in
time. What it answers may depend on what the session has seen. -/
abbrev Connection := Option Nat → Call Session

/-- **A call of a stand-in service.** Faults come first and are not logged. -/
def Service.call (service : Service) : Connection := fun limit? r => do
  match service.faults.find? (fun f => f.method == r.method && f.path == r.path) with
  | some f =>
    match f.effect with
    | .failure causes => return .error (": ".intercalate causes)
    | .crash text? => throw (.crashed text?)
  | none =>
    modify (fun t => { t with requests := t.requests ++ [r] })
    let (response, delay) := respond service.routes r
    Session.wait limit? delay.toNat
    return .ok response

end CallChain
