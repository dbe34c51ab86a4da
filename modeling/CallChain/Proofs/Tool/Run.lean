import CallChain.Tool.Run
import Mathlib.Data.List.Basic

/-!
# Runs of a tool, call by call

A tool runs against a caller with a state of its own. What one call does to a run depends on whether
there is a request, whether there is an answer, and whether the answer is a success; there is one
equation for each way. With them the run is followed in two ways: by the list of all requests that
were made (`CallChain.Call.recorded`), and by the calls that it gets to
(`CallChain.Tool.Reaches`).
-/

set_option autoImplicit false

namespace CallChain

variable {σ : Type} {call : Call (StateM σ)} {input : Json} {step : ℕ} {previous? : Option Json}
  {first : ToolStep} {later : List ToolStep} {s s' : σ} {request : Request} {response : Response}

/-! ### One call -/

namespace Tool

theorem runFrom_of_refused {e : ToolError}
    (hrequest : first.request step input previous? = .error e) :
    (runFrom call input step previous? (first :: later)).run s = (.error e, s) := by
  rw [runFrom, hrequest]
  rfl

theorem runFrom_of_lost {reason : String}
    (hrequest : first.request step input previous? = .ok request)
    (hcall : (call request).run s = (.error reason, s')) :
    (runFrom call input step previous? (first :: later)).run s =
      (.error (.transport step reason), s') := by
  simp only [runFrom, hrequest]
  rw [StateT.run_bind, hcall]
  rfl

theorem runFrom_of_failed (hrequest : first.request step input previous? = .ok request)
    (hcall : (call request).run s = (.ok response, s')) (hfailed : response.isSuccess = false) :
    (runFrom call input step previous? (first :: later)).run s =
      (.error (.stepFailed step response.status), s') := by
  simp only [runFrom, hrequest]
  rw [StateT.run_bind, hcall]
  simp only [bind, hfailed, Bool.false_eq_true, if_false]
  rfl

/-- **After a success a run goes on** with the next call, from the state that the caller is left
in. -/
theorem runFrom_of_success (hrequest : first.request step input previous? = .ok request)
    (hcall : (call request).run s = (.ok response, s')) (hsuccess : response.isSuccess = true) :
    (runFrom call input step previous? (first :: later)).run s =
      (runFrom call input (step + 1) (some response.body) later).run s' := by
  simp only [runFrom, hrequest]
  rw [StateT.run_bind, hcall]
  simp only [bind, hsuccess, if_true]

end Tool

/-! ### Recorded runs -/

namespace Call

/-- **A caller that keeps all requests**, in the order in which they are made. -/
def recorded (call : Call (StateM σ)) : Call (StateM (σ × List Request)) :=
  fun request => StateT.mk fun (s, sent) =>
    let (answer, s') := (call request).run s
    (answer, s', sent ++ [request])

theorem run_recorded {answer : Except String Response} (hcall : (call request).run s = (answer, s'))
    (sent : List Request) :
    (call.recorded request).run (s, sent) = (answer, s', sent ++ [request]) := by
  simp [recorded, hcall]

end Call

/-! ### Calls that are reached -/

namespace Tool

/-- **A run gets to a call**: the number of the call, the answer of the call before, and the state
that the caller is in. An accepted input gets to the first call, and a success to the next. -/
inductive Reaches (t : Tool) (call : Call (StateM σ)) (input : Json) (s₀ : σ) :
    ℕ → Option Json → σ → Prop
  | start (hinput : Schema.conforms t.inputSchema input = .ok ()) :
      Reaches t call input s₀ 0 none s₀
  | next {step : ℕ} {previous? : Option Json} {s s' : σ} {c : ToolStep} {request : Request}
      {response : Response} (hreaches : Reaches t call input s₀ step previous? s)
      (hstep : t.steps[step]? = some c) (hrequest : c.request step input previous? = .ok request)
      (hcall : (call request).run s = (.ok response, s')) (hsuccess : response.isSuccess = true) :
      Reaches t call input s₀ (step + 1) (some response.body) s'

namespace Reaches

variable {t : Tool} {s₀ : σ}

/-- What is left of a run that gets to a call are the calls from there on. -/
theorem run_invoke_eq (h : t.Reaches call input s₀ step previous? s) :
    (t.invoke call input).run s₀ =
      (runFrom call input step previous? (t.steps.drop step)).run s := by
  induction h with
  | start hinput => rw [invoke, hinput, List.drop_zero]
  | next _ hstep hrequest hcall hsuccess ih =>
    obtain ⟨hlt, hget⟩ := List.getElem?_eq_some_iff.mp hstep
    rw [ih, List.drop_eq_getElem_cons hlt, hget, runFrom_of_success hrequest hcall hsuccess]

theorem conforms (h : t.Reaches call input s₀ step previous? s) :
    Schema.conforms t.inputSchema input = .ok () := by
  induction h with
  | start hinput => exact hinput
  | next _ _ _ _ _ ih => exact ih

/-- All calls but the first have an answer before them. -/
theorem isSome_previous?_iff (h : t.Reaches call input s₀ step previous? s) :
    previous?.isSome = true ↔ 1 ≤ step := by
  cases h with
  | start => simp
  | next => simp

end Reaches

end Tool

end CallChain
