import CallChain.Proofs.Result
import CallChain.Proofs.Tool.Run

/-!
# The trace of a run

A run is followed by the list of its exchanges: the requests that were made, each with what the
caller answered. Whatever the caller is, and whatever it remembers, the exchanges of a run are a
sequence of successes (`CallChain.Tool.Succeeds`) that ends in one of five ways
(`CallChain.Tool.Ends`, `CallChain.Tool.exists_ends_invoke`). Nothing of the caller is left in this
description, and what the log says about the outcome follows from it by cases
(`CallChain.Tool.TraceLaw`, `CallChain.Tool.traceLaw_invoke`).

The sequences grow at their end. In this way the number of a step is the length of what was
exchanged before it, and no numbers have to be shifted on the way.
-/

set_option autoImplicit false

namespace CallChain

variable {σ : Type} {input : Json}

/-! ### Exchanges -/

/-- **A request and what came of it.** -/
structure Exchange where
  request : Request
  answer : Except String Response

namespace Exchange

/-- Whether there was an answer, and a success. -/
def isSuccess (x : Exchange) : Bool :=
  match x.answer with
  | .ok response => response.isSuccess
  | .error _ => false

/-- The body of the answer. -/
def body? (x : Exchange) : Option Json :=
  match x.answer with
  | .ok response => some response.body
  | .error _ => none

/-- **What a step finds before it**: the body that the call of the step before returned. -/
def bodyBefore (log : List Exchange) : ℕ → Option Json
  | 0 => none
  | step + 1 => log[step]?.bind body?

/-- Later exchanges do not change what a step finds before it. -/
theorem bodyBefore_append {log : List Exchange} {step : ℕ} (h : step ≤ log.length)
    (later : List Exchange) : bodyBefore (log ++ later) step = bodyBefore log step := by
  cases step with
  | zero => rfl
  | succ step => rw [bodyBefore, bodyBefore, List.getElem?_append_left (by omega)]

/-- An exchange that is found after one more was added was there before, or is the one. -/
theorem getElem?_concat_eq_some {log : List Exchange} {x y : Exchange} {i : ℕ}
    (h : (log ++ [x])[i]? = some y) :
    i < log.length ∧ log[i]? = some y ∨ i = log.length ∧ y = x := by
  have hi := (List.getElem?_eq_some_iff.mp h).1
  rw [List.length_append, List.length_singleton, Nat.lt_succ_iff_lt_or_eq] at hi
  rcases hi with hlt | rfl
  · rw [List.getElem?_append_left hlt] at h
    exact Or.inl ⟨hlt, h⟩
  · rw [List.getElem?_concat_length, Option.some_inj] at h
    exact Or.inr ⟨rfl, h.symm⟩

theorem bodyBefore_concat (log : List Exchange) (x : Exchange) :
    bodyBefore (log ++ [x]) (log.length + 1) = x.body? := by
  rw [bodyBefore, List.getElem?_concat_length, Option.bind_some]

end Exchange

open Exchange (bodyBefore bodyBefore_append bodyBefore_concat getElem?_concat_eq_some)

namespace Call

/-- **A caller that keeps all exchanges**, in the order in which they are made. -/
def logged (call : Call (StateM σ)) : Call (StateM (σ × List Exchange)) :=
  fun request => StateT.mk fun (s, log) =>
    let (answer, s') := (call request).run s
    (answer, s', log ++ [⟨request, answer⟩])

theorem run_logged {call : Call (StateM σ)} {request : Request} {s s' : σ}
    {answer : Except String Response} (hcall : (call request).run s = (answer, s'))
    (log : List Exchange) :
    (call.logged request).run (s, log) = (answer, s', log ++ [⟨request, answer⟩]) := by
  simp [logged, hcall]

end Call

/-! ### Errors of a step -/

namespace ToolError

/-- The step that an error names. -/
def step? : ToolError → Option ℕ
  | .stepFailed step _ => some step
  | .invalidInput _ => none
  | .missingParameter step _ => some step
  | .missingMappedValue step _ => some step
  | .injectFailed step _ => some step
  | .transport step _ => some step

/-- **The step without a request**, for the three errors that say that there is none. -/
def unsent? : ToolError → Option ℕ
  | .missingParameter step _ => some step
  | .missingMappedValue step _ => some step
  | .injectFailed step _ => some step
  | .stepFailed _ _ => none
  | .invalidInput _ => none
  | .transport _ _ => none

theorem step?_of_unsent? {e : ToolError} {step : ℕ} (h : e.unsent? = some step) :
    e.step? = some step := by
  cases e with
  | missingParameter | missingMappedValue | injectFailed => exact h
  | stepFailed | invalidInput | transport => cases h

end ToolError

namespace ToolStep

variable {c : ToolStep} {step : ℕ} {e : ToolError}

theorem unsent?_of_applyMappings {response : Json} {mappings : List ParsedMapping} {values : Json}
    (h : applyMappings step response mappings values = .error e) : e.unsent? = some step := by
  induction mappings generalizing values with
  | nil => cases h
  | cons m rest ih =>
    rw [applyMappings] at h
    split at h
    · cases h
      rfl
    · split at h
      · cases h
        rfl
      · exact ih h

theorem unsent?_of_values {previous? : Option Json}
    (h : c.values step input previous? = .error e) : e.unsent? = some step := by
  rcases previous? with _ | response
  · cases h
  · rw [values] at h
    split at h
    · cases h
      exact unsent?_of_applyMappings ‹_›
    · cases h
    · cases h

theorem unsent?_of_placeAll {values : Members} {parameters : List Parameter} {d : Draft}
    (h : placeAll step values parameters d = .error e) : e.unsent? = some step := by
  induction parameters generalizing d with
  | nil => cases h
  | cons p rest ih =>
    rw [placeAll] at h
    split at h
    · exact ih h
    · split at h
      · cases h
        rfl
      · exact ih h

/-- **A step without a request says so**, under its own number. -/
theorem unsent?_of_request {previous? : Option Json}
    (h : c.request step input previous? = .error e) : e.unsent? = some step := by
  rw [request, bind_eq_error_iff] at h
  rcases h with hvalues | ⟨values, -, h⟩
  · exact unsent?_of_values hvalues
  · rw [bind_eq_error_iff] at h
    rcases h with hplace | ⟨d, -, h⟩
    · exact unsent?_of_placeAll hplace
    · split at h
      · cases h
        rfl
      · cases h

end ToolStep

namespace Tool

variable {t : Tool} {log : List Exchange} {outcome : Except ToolError Json}

/-! ### How runs go on and how they end -/

/-- **Exchanges that were all successes.** Each is the request of the next step, made from the input
and from the body that came last. -/
inductive Succeeds (t : Tool) (input : Json) : List Exchange → Prop
  | start (hinput : Schema.conforms t.inputSchema input = .ok ()) : Succeeds t input []
  | next {log : List Exchange} {c : ToolStep} {request : Request} {response : Response}
      (hlog : Succeeds t input log) (hstep : t.steps[log.length]? = some c)
      (hrequest : c.request log.length input (bodyBefore log log.length) = .ok request)
      (hsuccess : response.isSuccess = true) :
      Succeeds t input (log ++ [⟨request, .ok response⟩])

namespace Succeeds

theorem conforms (h : t.Succeeds input log) : Schema.conforms t.inputSchema input = .ok () := by
  induction h with
  | start hinput => exact hinput
  | next _ _ _ _ ih => exact ih

theorem isSuccess (h : t.Succeeds input log) : ∀ x ∈ log, x.isSuccess = true := by
  induction h with
  | start => exact fun x hx => nomatch hx
  | next _ _ _ hsuccess ih =>
    rw [List.forall_mem_append, List.forall_mem_singleton]
    exact ⟨ih, hsuccess⟩

theorem length_le (h : t.Succeeds input log) : log.length ≤ t.steps.length := by
  cases h with
  | start => exact Nat.zero_le _
  | next _ hstep =>
    rw [List.length_append, List.length_singleton]
    exact (List.getElem?_eq_some_iff.mp hstep).1

end Succeeds

/-- **The ways in which a run ends**: before the first call, after the last one, at a step that has
no request, at a call without an answer, or at an answer that is no success. -/
inductive Ends (t : Tool) (input : Json) : List Exchange → Except ToolError Json → Prop
  | rejected {reason : Schema.Nonconformance}
      (hinput : Schema.conforms t.inputSchema input = .error reason) :
      Ends t input [] (.error (.invalidInput reason))
  | done {log : List Exchange} (hlog : t.Succeeds input log)
      (hall : log.length = t.steps.length) :
      Ends t input log (.ok ((bodyBefore log log.length).getD .null))
  | refused {log : List Exchange} {c : ToolStep} {e : ToolError} (hlog : t.Succeeds input log)
      (hstep : t.steps[log.length]? = some c)
      (hrequest : c.request log.length input (bodyBefore log log.length) = .error e) :
      Ends t input log (.error e)
  | lost {log : List Exchange} {c : ToolStep} {request : Request} {reason : String}
      (hlog : t.Succeeds input log) (hstep : t.steps[log.length]? = some c)
      (hrequest : c.request log.length input (bodyBefore log log.length) = .ok request) :
      Ends t input (log ++ [⟨request, .error reason⟩]) (.error (.transport log.length reason))
  | failed {log : List Exchange} {c : ToolStep} {request : Request} {response : Response}
      (hlog : t.Succeeds input log) (hstep : t.steps[log.length]? = some c)
      (hrequest : c.request log.length input (bodyBefore log log.length) = .ok request)
      (hfailed : response.isSuccess = false) :
      Ends t input (log ++ [⟨request, .ok response⟩])
        (.error (.stepFailed log.length response.status))

/-- **After successes a run goes on until it ends**, and what it does is the same whether or not the
caller keeps the exchanges. -/
theorem exists_ends_runFrom (call : Call (StateM σ)) {later : List ToolStep}
    (hlog : t.Succeeds input log) (hlater : t.steps.drop log.length = later) (s : σ) :
    ∃ outcome s' log',
      (runFrom call input log.length (bodyBefore log log.length) later).run s = (outcome, s') ∧
      (runFrom call.logged input log.length (bodyBefore log log.length) later).run (s, log) =
        (outcome, s', log') ∧
      t.Ends input log' outcome := by
  induction later generalizing log s with
  | nil =>
    have hall : log.length = t.steps.length :=
      Nat.le_antisymm hlog.length_le (List.drop_eq_nil_iff.mp hlater)
    exact ⟨_, s, log, rfl, rfl, .done hlog hall⟩
  | cons c later ih =>
    have hstep : t.steps[log.length]? = some c := by
      rw [← List.head?_drop, hlater, List.head?_cons]
    rcases hrequest : c.request log.length input (bodyBefore log log.length) with e | request
    · exact ⟨_, s, log, runFrom_of_refused hrequest, runFrom_of_refused hrequest,
        .refused hlog hstep hrequest⟩
    · obtain ⟨answer, s', hcall⟩ : ∃ answer s', (call request).run s = (answer, s') :=
        ⟨_, _, rfl⟩
      have hcall' := Call.run_logged hcall log
      rcases answer with reason | response
      · exact ⟨_, s', _, runFrom_of_lost hrequest hcall, runFrom_of_lost hrequest hcall',
          .lost hlog hstep hrequest⟩
      · rcases hsuccess : response.isSuccess with _ | _
        · exact ⟨_, s', _, runFrom_of_failed hrequest hcall hsuccess,
            runFrom_of_failed hrequest hcall' hsuccess, .failed hlog hstep hrequest hsuccess⟩
        · -- The run goes on as one that has seen this exchange too.
          have hnext := hlog.next hstep hrequest hsuccess
          have hdrop :
              t.steps.drop (log ++ [Exchange.mk request (.ok response)]).length = later := by
            rw [List.length_append, List.length_singleton, ← List.tail_drop, hlater,
              List.tail_cons]
          obtain ⟨outcome, s'', log', hrun, hrun', hends⟩ := ih hnext hdrop s'
          rw [List.length_append, List.length_singleton, bodyBefore_concat] at hrun hrun'
          exact ⟨outcome, s'', log', (runFrom_of_success hrequest hcall hsuccess).trans hrun,
            (runFrom_of_success hrequest hcall' hsuccess).trans hrun', hends⟩

/-- **Every run ends in one of the five ways.** -/
theorem exists_ends_invoke (t : Tool) (call : Call (StateM σ)) (input : Json) (s : σ) :
    ∃ outcome s' log, (t.invoke call input).run s = (outcome, s') ∧
      (t.invoke call.logged input).run (s, []) = (outcome, s', log) ∧
      t.Ends input log outcome := by
  rcases hinput : Schema.conforms t.inputSchema input with reason | ⟨⟩
  · refine ⟨_, s, [], ?_, ?_, .rejected hinput⟩
    · rw [invoke, hinput]
      rfl
    · rw [invoke, hinput]
      rfl
  · obtain ⟨outcome, s', log, hrun, hrun', hends⟩ :=
      exists_ends_runFrom call (.start hinput) rfl s
    refine ⟨outcome, s', log, ?_, ?_, hends⟩
    · rw [invoke, hinput]
      exact hrun
    · rw [invoke, hinput]
      exact hrun'

/-! ### What the log says about the outcome -/

/-- **Every call is the request of its step**, made from the input and from what the call before
returned. -/
def Requested (t : Tool) (input : Json) (log : List Exchange) : Prop :=
  ∀ i x, log[i]? = some x →
    ∃ c : ToolStep, t.steps[i]? = some c ∧ c.request i input (bodyBefore log i) = .ok x.request

/-- One more call is the request of the next step. -/
theorem Requested.concat {c : ToolStep} {x : Exchange} (h : t.Requested input log)
    (hstep : t.steps[log.length]? = some c)
    (hrequest : c.request log.length input (bodyBefore log log.length) = .ok x.request) :
    t.Requested input (log ++ [x]) := by
  intro i y hy
  rcases getElem?_concat_eq_some hy with ⟨hlt, hy⟩ | ⟨rfl, rfl⟩
  · rw [bodyBefore_append (Nat.le_of_lt hlt)]
    exact h i y hy
  · rw [bodyBefore_append (Nat.le_refl _)]
    exact ⟨c, hstep, hrequest⟩

theorem Succeeds.requested (h : t.Succeeds input log) : t.Requested input log := by
  induction h with
  | start => exact fun i x hx => nomatch hx
  | next _ hstep hrequest _ ih => exact ih.concat hstep hrequest

/-- After successes only the exchange that comes next can be another one. -/
theorem Succeeds.eq_of_isSuccess_eq_false {x y : Exchange} {i : ℕ} (h : t.Succeeds input log)
    (hy : (log ++ [x])[i]? = some y) (hfailed : y.isSuccess = false) : i = log.length ∧ y = x := by
  rcases getElem?_concat_eq_some hy with ⟨-, hy⟩ | hlast
  · rw [h.isSuccess y (List.mem_of_getElem? hy)] at hfailed
    cases hfailed
  · exact hlast

namespace Ends

theorem requested (h : t.Ends input log outcome) : t.Requested input log := by
  cases h with
  | rejected => exact fun i x hx => nomatch hx
  | done hlog => exact hlog.requested
  | refused hlog => exact hlog.requested
  | lost hlog hstep hrequest => exact hlog.requested.concat hstep hrequest
  | failed hlog hstep hrequest => exact hlog.requested.concat hstep hrequest

/-- **An exchange that is no success is the last one**, and the run reports it. -/
theorem eq_of_isSuccess_eq_false {i : ℕ} {x : Exchange} (h : t.Ends input log outcome)
    (hx : log[i]? = some x) (hfailed : x.isSuccess = false) :
    log.length = i + 1 ∧
      ((∃ reason, x.answer = .error reason ∧ outcome = .error (.transport i reason)) ∨
        ∃ response, x.answer = .ok response ∧
          outcome = .error (.stepFailed i response.status)) := by
  cases h with
  | rejected => cases hx
  | done hlog | refused hlog =>
    rw [hlog.isSuccess x (List.mem_of_getElem? hx)] at hfailed
    cases hfailed
  | lost hlog =>
    obtain ⟨rfl, rfl⟩ := hlog.eq_of_isSuccess_eq_false hx hfailed
    exact ⟨by simp, Or.inl ⟨_, rfl, rfl⟩⟩
  | failed hlog =>
    obtain ⟨rfl, rfl⟩ := hlog.eq_of_isSuccess_eq_false hx hfailed
    exact ⟨by simp, Or.inr ⟨_, rfl, rfl⟩⟩

theorem isSuccess_of_lt {i : ℕ} {x : Exchange} (h : t.Ends input log outcome)
    (hi : i + 1 < log.length) (hx : log[i]? = some x) : x.isSuccess = true := by
  rw [← Bool.not_eq_false]
  intro hfailed
  have hlast := (h.eq_of_isSuccess_eq_false hx hfailed).1
  omega

/-- A run returns something when all steps were called and all calls were successes. -/
theorem eq_ok_iff {output : Json} (h : t.Ends input log outcome) :
    outcome = .ok output ↔ Schema.conforms t.inputSchema input = .ok () ∧
      log.length = t.steps.length ∧ (∀ x ∈ log, x.isSuccess = true) ∧
      output = (bodyBefore log log.length).getD .null := by
  constructor
  · rintro rfl
    cases h with
    | done hlog hall => exact ⟨hlog.conforms, hall, hlog.isSuccess, rfl⟩
  · rintro ⟨haccepted, hall, hsuccess, rfl⟩
    cases h with
    | rejected hinput =>
      rw [haccepted] at hinput
      cases hinput
    | done => rfl
    | refused _ hstep =>
      have hlt := (List.getElem?_eq_some_iff.mp hstep).1
      omega
    | lost => cases hsuccess _ List.mem_concat_self
    | failed _ _ _ hfailed => cases hfailed.symm.trans (hsuccess _ List.mem_concat_self)

/-- A run reports a status when a call was answered with it. -/
theorem eq_stepFailed_iff {i : ℕ} {status : UInt16} (h : t.Ends input log outcome) :
    outcome = .error (.stepFailed i status) ↔ ∃ x response, log[i]? = some x ∧
      x.answer = .ok response ∧ response.isSuccess = false ∧ response.status = status := by
  constructor
  · rintro rfl
    cases h with
    | refused _ _ hrequest => cases ToolStep.unsent?_of_request hrequest
    | failed _ _ _ hfailed => exact ⟨_, _, List.getElem?_concat_length, rfl, hfailed, rfl⟩
  · rintro ⟨x, response, hx, hanswer, hfailed, rfl⟩
    have hxfailed : x.isSuccess = false := by
      rw [Exchange.isSuccess, hanswer]
      exact hfailed
    obtain ⟨-, ⟨reason, hanswer', -⟩ | ⟨response', hanswer', houtcome⟩⟩ :=
      h.eq_of_isSuccess_eq_false hx hxfailed
    · cases hanswer.symm.trans hanswer'
    · cases hanswer.symm.trans hanswer'
      exact houtcome

/-- A run reports a call that failed on the way when there was one. -/
theorem eq_transport_iff {i : ℕ} {reason : String} (h : t.Ends input log outcome) :
    outcome = .error (.transport i reason) ↔ ∃ x, log[i]? = some x ∧ x.answer = .error reason := by
  constructor
  · rintro rfl
    cases h with
    | refused _ _ hrequest => cases ToolStep.unsent?_of_request hrequest
    | lost => exact ⟨_, List.getElem?_concat_length, rfl⟩
  · rintro ⟨x, hx, hanswer⟩
    have hxfailed : x.isSuccess = false := by rw [Exchange.isSuccess, hanswer]
    obtain ⟨-, ⟨reason', hanswer', houtcome⟩ | ⟨response, hanswer', -⟩⟩ :=
      h.eq_of_isSuccess_eq_false hx hxfailed
    · cases hanswer.symm.trans hanswer'
      exact houtcome
    · cases hanswer.symm.trans hanswer'

/-- A step without a request ends a run before it is called. -/
theorem length_eq_of_unsent? {i : ℕ} {e : ToolError} (h : t.Ends input log (.error e))
    (he : e.unsent? = some i) :
    log.length = i ∧ (∀ x ∈ log, x.isSuccess = true) ∧
      ∃ c : ToolStep, t.steps[i]? = some c ∧
        c.request i input (bodyBefore log i) = .error e := by
  cases h with
  | rejected | lost | failed => cases he
  | refused hlog hstep hrequest =>
    cases (ToolStep.unsent?_of_request hrequest).symm.trans he
    exact ⟨rfl, hlog.isSuccess, _, hstep, hrequest⟩

/-- **No call is made after the step that the error names.** -/
theorem length_le_of_step? {i : ℕ} {e : ToolError} (h : t.Ends input log (.error e))
    (he : e.step? = some i) : log.length ≤ i + 1 := by
  cases h with
  | rejected => cases he
  | refused hlog hstep hrequest =>
    cases (ToolError.step?_of_unsent? (ToolStep.unsent?_of_request hrequest)).symm.trans he
    exact Nat.le_succ _
  | lost | failed =>
    cases he
    simp

end Ends

/-- **What the log of a run and its outcome say about each other.** -/
structure TraceLaw (t : Tool) (input : Json) (log : List Exchange)
    (outcome : Except ToolError Json) : Prop where
  /-- An input that does not fit is refused, and no other. -/
  rejects : ∀ reason, outcome = .error (.invalidInput reason) ↔
    Schema.conforms t.inputSchema input = .error reason
  /-- No call is made for such an input. -/
  silent : ∀ reason, Schema.conforms t.inputSchema input = .error reason → log = []
  /-- Call `i` is the request of step `i`, made from the input and from what call `i - 1`
  returned. -/
  requests : ∀ i x, log[i]? = some x →
    ∃ c : ToolStep, t.steps[i]? = some c ∧
      c.request i input (bodyBefore log i) = .ok x.request
  /-- Only the last call can be one that was not answered with a success. -/
  successes : ∀ i x, i + 1 < log.length → log[i]? = some x → x.isSuccess = true
  /-- The output is the body of the last call, or null, and there is one exactly when all steps were
  called with success. -/
  returns : ∀ output, outcome = .ok output ↔
    Schema.conforms t.inputSchema input = .ok () ∧ log.length = t.steps.length ∧
      (∀ x ∈ log, x.isSuccess = true) ∧ output = (bodyBefore log log.length).getD .null
  /-- A status is reported exactly when the call was answered with it and all earlier ones with a
  success. -/
  fails : ∀ i status, outcome = .error (.stepFailed i status) ↔
    (∃ x response, log[i]? = some x ∧ x.answer = .ok response ∧ response.isSuccess = false ∧
      response.status = status) ∧ ∀ j x, j < i → log[j]? = some x → x.isSuccess = true
  /-- A call that got no answer is reported exactly when there was one, after successes only. -/
  loses : ∀ i reason, outcome = .error (.transport i reason) ↔
    (∃ x, log[i]? = some x ∧ x.answer = .error reason) ∧
      ∀ j x, j < i → log[j]? = some x → x.isSuccess = true
  /-- No call is made after the step that an error names. -/
  stops : ∀ e i, outcome = .error e → e.step? = some i → log.length ≤ i + 1
  /-- A step that has no request is not called; all steps before it were, with success. -/
  unsent : ∀ e i, outcome = .error e → e.unsent? = some i → log.length = i ∧
    (∀ x ∈ log, x.isSuccess = true) ∧
    ∃ c : ToolStep, t.steps[i]? = some c ∧ c.request i input (bodyBefore log i) = .error e

theorem Ends.traceLaw (h : t.Ends input log outcome) : t.TraceLaw input log outcome where
  rejects reason := by
    constructor
    · rintro rfl
      cases h with
      | rejected hinput => exact hinput
      | refused _ _ hrequest => cases ToolStep.unsent?_of_request hrequest
    · intro hinput
      cases h with
      | rejected hinput' =>
        cases hinput'.symm.trans hinput
        rfl
      | done hlog | refused hlog | lost hlog | failed hlog =>
        cases hlog.conforms.symm.trans hinput
  silent reason hinput := by
    cases h with
    | rejected => rfl
    | done hlog | refused hlog | lost hlog | failed hlog =>
      cases hlog.conforms.symm.trans hinput
  requests := h.requested
  successes _ _ := h.isSuccess_of_lt
  returns _ := h.eq_ok_iff
  fails i status := by
    rw [h.eq_stepFailed_iff, iff_self_and]
    rintro ⟨x, response, hx, -⟩ j y hj hy
    have hlt := (List.getElem?_eq_some_iff.mp hx).1
    exact h.isSuccess_of_lt (by omega) hy
  loses i reason := by
    rw [h.eq_transport_iff, iff_self_and]
    rintro ⟨x, hx, -⟩ j y hj hy
    have hlt := (List.getElem?_eq_some_iff.mp hx).1
    exact h.isSuccess_of_lt (by omega) hy
  stops e i he := (he ▸ h).length_le_of_step?
  unsent e i he := (he ▸ h).length_eq_of_unsent?

/-- **The law of traces.** Whatever the caller is and in whatever state it is, what a run asks of it
and what the run comes to are as the law says. -/
theorem traceLaw_invoke (t : Tool) (call : Call (StateM σ)) (input : Json) (s : σ) :
    ∃ outcome s' log, (t.invoke call input).run s = (outcome, s') ∧
      (t.invoke call.logged input).run (s, []) = (outcome, s', log) ∧
      t.TraceLaw input log outcome := by
  obtain ⟨outcome, s', log, hrun, hlogged, hends⟩ := exists_ends_invoke t call input s
  exact ⟨outcome, s', log, hrun, hlogged, hends.traceLaw⟩

end Tool

end CallChain
