import CallChain.Proofs.Verification.Tasks
import Mathlib.Algebra.GroupWithZero.Nat
import Mathlib.Data.List.Basic
import Mathlib.Data.String.Basic

/-!
# No context is leaked and no verdict misplaced

Whatever the order of the moves, the gauge shows the number of live contexts, no more contexts are
live than there are permits, and every verdict ends in the slot of its case
(`CallChain.Batch.Reached.accounts`).

The invariant is on the board as a whole (`CallChain.Board.Sound`). Its counts are kept because a
move changes the desk by just as much as it changes what its task owns
(`CallChain.Batch.Advances.gauge_eq`, `CallChain.Batch.Advances.permits_eq`). The rest of it says of
each task what its moves so far were, given its phase and its slot (`CallChain.Batch.Tells`): that
it has come to one verdict and which, or to none, or that it has panicked. A move leaves the other
tasks and their slots alone, since a task is joined with the number of its own case.
-/

set_option autoImplicit false

namespace CallChain

/-! ### What a crash is called -/

theorem head?_toList_append {text : String} {c : Char} (h : text.toList.head? = some c)
    (more : String) : (text ++ more).toList.head? = some c := by
  rw [String.toList_append, List.head?_append, h]
  rfl

namespace Verdict

/-- A text that starts with another letter is not what is said of a case whose task panicked. -/
theorem ne_lostText {text : String} {c : Char} (h : text.toList.head? = some c) (hc : c ≠ 'v') :
    text ≠ lostText := by
  rintro rfl
  exact hc (Option.some_inj.mp (h.symm.trans (by rfl)))

theorem crash_ne_lost {elapsed : UInt64} {text : String} (h : text ≠ lostText) :
    crash elapsed text ≠ lost := by
  intro heq
  have hfailure : some (Failure.crashed text) = some (Failure.crashed lostText) :=
    congrArg Verdict.failure? heq
  exact h (Failure.crashed.inj (Option.some_inj.mp hfailure))

end Verdict

theorem Refusal.message_ne (r : Refusal) : r.message ≠ Verdict.lostText := by
  have hstart : r.message.toList.head? = some 'F' := by
    cases r with
    | noDirectory reason => exact head?_toList_append rfl _
    | notWritten path reason =>
      exact head?_toList_append (head?_toList_append (head?_toList_append rfl _) _) _
  exact Verdict.ne_lostText hstart (by decide)

theorem ToolError.message_ne (e : ToolError) : e.message ≠ Verdict.lostText := by
  have hstep : ∀ step : ℕ, ("step " ++ toString step).toList.head? = some 's' :=
    fun step => head?_toList_append rfl _
  cases e with
  | stepFailed step status =>
    exact Verdict.ne_lostText (head?_toList_append (head?_toList_append (hstep step) _) _)
      (by decide)
  | invalidInput reason =>
    exact Verdict.ne_lostText (c := 'i') (head?_toList_append rfl _) (by decide)
  | missingParameter step parameter =>
    exact Verdict.ne_lostText
      (head?_toList_append (head?_toList_append (head?_toList_append (hstep step) _) _) _)
      (by decide)
  | missingMappedValue step path =>
    exact Verdict.ne_lostText
      (head?_toList_append (head?_toList_append (head?_toList_append (hstep step) _) _) _)
      (by decide)
  | injectFailed step error =>
    exact Verdict.ne_lostText (head?_toList_append (head?_toList_append (hstep step) _) _)
      (by decide)
  | transport step reason =>
    exact Verdict.ne_lostText (head?_toList_append (head?_toList_append (hstep step) _) _)
      (by decide)

theorem crashText_ne (text? : Option String) : crashText text? ≠ Verdict.lostText := by
  have hstart : (crashText text?).toList.head? = some 't' := by
    cases text? with
    | none => rfl
    | some text => exact head?_toList_append rfl _
  exact Verdict.ne_lostText hstart (by decide)

/-- Why a tool cannot be had is told in other words. -/
theorem Context.ne_of_tool_eq_error {c : Context} {text : String} (h : c.tool = .error text) :
    text ≠ Verdict.lostText := by
  have hstart : text.toList.head? = some 'F' := by
    rw [tool] at h
    split at h
    · cases h
      rfl
    · split at h
      · cases h
      · cases h
        exact head?_toList_append rfl _
  exact Verdict.ne_lostText hstart (by decide)

/-! ### What a task can find out -/

namespace Batch

variable {b : Batch} {case : TestCase}

/-- **What a run of a case can come to** in a new context. -/
inductive Earns (b : Batch) (case : TestCase) : Outcome → Prop
  | ended {t : Tool} {ended : Except Interruption (Except ToolError Json)}
      (htool : (Context.provision b.artifact).tool = .ok t) (hends : b.ends t case ended) :
      Earns b case (Context.outcomeOf ended)
  | misread {text : String} (htool : (Context.provision b.artifact).tool = .error text) :
      Earns b case (.crashed text)

/-- **The moves by which a task comes to a verdict of its own.** -/
inductive Concludes (b : Batch) (case : TestCase) : Move → Prop
  | refuse (refusal : Refusal) (elapsed : UInt64) :
      Concludes b case (.refuse (.crash elapsed refusal.message))
  | judge {o : Outcome} (elapsed : UInt64) (h : b.Earns case o) :
      Concludes b case (.judge (CallChain.judge o case.expected? b.config.timeout elapsed))

/-- A crash in a run is told in other words than a panic of its task. -/
theorem Earns.crashed_ne {o : Outcome} (h : b.Earns case o) {text : String}
    (ho : o = .crashed text) : text ≠ Verdict.lostText := by
  cases h with
  | @ended t ended htool hends =>
    match ended with
    | .ok (.ok output) => cases ho
    | .ok (.error e) => cases ho
    | .error .timedOut => cases ho
    | .error (.crashed text?) =>
      cases ho
      exact crashText_ne text?
  | misread htool =>
    cases ho
    exact Context.ne_of_tool_eq_error htool

theorem judge_ne_lost {o : Outcome} (ho : ∀ text, o = .crashed text → text ≠ Verdict.lostText)
    (expected? : Option Expectation) (timeout elapsed : UInt64) :
    judge o expected? timeout elapsed ≠ .lost := by
  have hstatus : ∀ v : Verdict, v.status ≠ .crashFailed → v ≠ .lost := by
    rintro v hv rfl
    exact hv rfl
  cases o with
  | completed output =>
    simp only [judge]
    split <;> exact hstatus _ nofun
  | toolFailed e =>
    cases e with
    | stepFailed step status =>
      simp only [judge]
      split <;> exact hstatus _ nofun
    | invalidInput | missingParameter | missingMappedValue | injectFailed | transport =>
      exact Verdict.crash_ne_lost (ToolError.message_ne _)
  | crashed text => exact Verdict.crash_ne_lost (ho text rfl)
  | timedOut => exact hstatus _ nofun

/-- **No verdict of a task is that of a lost task.** -/
theorem Concludes.verdict_ne_lost {m : Move} (h : b.Concludes case m) {v : Verdict}
    (hv : m.verdict? = some v) : v ≠ .lost := by
  cases h with
  | refuse refusal elapsed =>
    cases hv
    exact Verdict.crash_ne_lost refusal.message_ne
  | judge elapsed hearns =>
    cases hv
    exact judge_ne_lost (fun text => hearns.crashed_ne) _ _ _

/-! ### What the moves of a task say -/

/-- A task has come to no verdict yet. -/
structure Undecided (history : List Move) : Prop where
  calm : Move.panic ∉ history
  verdicts : history.filterMap Move.verdict? = []

/-- **A task has come to a verdict**, once and without a panic. -/
structure Decided (b : Batch) (case : TestCase) (history : List Move) (v : Verdict) : Prop where
  calm : Move.panic ∉ history
  verdicts : history.filterMap Move.verdict? = [v]
  concluded : ∃ m ∈ history, m.verdict? = some v ∧ b.Concludes case m

variable {history : List Move} {m : Move} {v : Verdict}

theorem calm_append (hcalm : Move.panic ∉ history) (hm : m ≠ .panic) :
    Move.panic ∉ history ++ [m] := by
  rw [List.mem_append, List.mem_singleton]
  exact not_or.mpr ⟨hcalm, hm.symm⟩

theorem Undecided.append (h : Undecided history) (hm : m ≠ .panic) (hv : m.verdict? = none) :
    Undecided (history ++ [m]) :=
  ⟨calm_append h.calm hm, by simp [h.verdicts, hv]⟩

theorem Decided.append (h : b.Decided case history v) (hm : m ≠ .panic)
    (hv : m.verdict? = none) : b.Decided case (history ++ [m]) v := by
  obtain ⟨concluding, hmem, hconcluding⟩ := h.concluded
  exact ⟨calm_append h.calm hm, by simp [h.verdicts, hv], concluding,
    List.mem_append_left _ hmem, hconcluding⟩

theorem Undecided.decided (h : Undecided history) (hc : b.Concludes case m)
    (hv : m.verdict? = some v) : b.Decided case (history ++ [m]) v := by
  have hm : m ≠ .panic := by
    rintro rfl
    cases hv
  exact ⟨calm_append h.calm hm, by simp [h.verdicts, hv], m, by simp, hv, hc⟩

/-- **What the moves of a task so far were**, given its phase and its slot. -/
def Tells (b : Batch) (index : ℕ) (case : TestCase) (history : List Move) :
    Phase → Option Verdict → Prop
  | .queued, slot => slot = none ∧ Undecided history
  | .admitted, slot => slot = none ∧ Undecided history
  | .equipped, slot => slot = none ∧ Undecided history
  | .provisioned c, slot => slot = none ∧ Undecided history ∧ c = Context.provision b.artifact
  | .ran _ o, slot => slot = none ∧ Undecided history ∧ b.Earns case o
  | .judged _ v, slot => slot = none ∧ b.Decided case history v
  | .cleared v, slot => slot = none ∧ b.Decided case history v
  | .returned place v, slot => slot = none ∧ b.Decided case history v ∧ place = index
  | .unwinding c? permit, slot =>
    slot = none ∧ Move.panic ∈ history ∧ (c?.isSome = true → permit = true)
  | .lost, slot => slot = none ∧ Move.panic ∈ history
  | .joined, slot =>
    (∃ v, slot = some v ∧ b.Decided case history v) ∨ (slot = none ∧ Move.panic ∈ history)

variable {index : ℕ} {phase phase' : Phase} {d d' : Desk} {slot : Option Verdict}

/-- Until a task is joined its slot is empty. -/
theorem Tells.slot_eq_none (h : b.Tells index case history phase slot)
    (hphase : phase ≠ .joined) : slot = none := by
  cases phase with
  | joined => exact absurd rfl hphase
  | queued | admitted | equipped | lost | judged | cleared => exact h.1
  | provisioned | ran | returned | unwinding => exact h.1

/-- A task that owns a context owns a permit. -/
theorem Tells.hasPermit_of_context? (h : b.Tells index case history phase slot)
    (hcontext : phase.context?.isSome = true) : phase.hasPermit = true := by
  cases phase with
  | provisioned | ran | judged => rfl
  | unwinding c? permit => exact h.2.2 hcontext
  | queued | admitted | equipped | cleared | returned | lost | joined => cases hcontext

/-! ### One move -/

namespace Advances

/-- **A move changes the gauge by the contexts that its task gains or loses.** -/
theorem gauge_eq (h : b.Advances index case phase d m phase' d') :
    d'.gauge + phase.context?.isSome.toNat = d.gauge + phase'.context?.isSome.toNat := by
  cases h <;> simp [Phase.context?]

/-- **A move changes the permits by those that its task gives back or takes.** -/
theorem permits_eq (h : b.Advances index case phase d m phase' d') :
    d'.permits + phase'.hasPermit.toNat = d.permits + phase.hasPermit.toNat := by
  cases h with
  | enter h =>
    simp only [Phase.hasPermit, Bool.toNat_true, Bool.toNat_false]
    omega
  | _ => simp [Phase.hasPermit]

theorem length_slots_eq (h : b.Advances index case phase d m phase' d') :
    d'.slots.length = d.slots.length := by
  cases h with
  | join => exact List.length_set
  | _ => rfl

/-- **A task leaves the slots of the others alone.** -/
theorem slot_eq_of_ne (h : b.Advances index case phase d m phase' d')
    (htells : b.Tells index case history phase slot) {i : ℕ} (hi : i ≠ index) :
    d'.slots[i]? = d.slots[i]? := by
  cases h with
  | join =>
    obtain ⟨-, -, rfl⟩ := htells
    exact List.getElem?_set_ne (Ne.symm hi)
  | _ => rfl

/-- **What the moves of a task say is kept up by its next move.** -/
theorem tells (h : b.Advances index case phase d m phase' d')
    (hslot : d.slots[index]? = some slot) (htells : b.Tells index case history phase slot) :
    ∃ slot', d'.slots[index]? = some slot' ∧
      b.Tells index case (history ++ [m]) phase' slot' := by
  cases h with
  | enter | equip =>
    obtain ⟨rfl, hopen⟩ := htells
    exact ⟨none, hslot, rfl, hopen.append nofun rfl⟩
  | provision =>
    obtain ⟨rfl, hopen⟩ := htells
    exact ⟨none, hslot, rfl, hopen.append nofun rfl, rfl⟩
  | refuse refusal elapsed =>
    obtain ⟨rfl, hopen⟩ := htells
    exact ⟨none, hslot, rfl, hopen.decided (.refuse refusal elapsed) rfl⟩
  | run htool hends =>
    obtain ⟨rfl, hopen, rfl⟩ := htells
    exact ⟨none, hslot, rfl, hopen.append nofun rfl, .ended htool hends⟩
  | misread htool =>
    obtain ⟨rfl, hopen, rfl⟩ := htells
    exact ⟨none, hslot, rfl, hopen.append nofun rfl, .misread htool⟩
  | judge elapsed hv =>
    obtain ⟨rfl, hopen, hearns⟩ := htells
    subst hv
    exact ⟨none, hslot, rfl, hopen.decided (.judge elapsed hearns) rfl⟩
  | tearDown =>
    obtain ⟨rfl, hdecided⟩ := htells
    exact ⟨none, hslot, rfl, hdecided.append nofun rfl⟩
  | release =>
    obtain ⟨rfl, hdecided⟩ := htells
    exact ⟨none, hslot, rfl, hdecided.append nofun rfl, rfl⟩
  | @join _ _ v =>
    -- The verdict was returned with the number of the task, so it lands in the task's own slot.
    obtain ⟨-, hdecided, rfl⟩ := htells
    have hlt := (List.getElem?_eq_some_iff.mp hslot).1
    exact ⟨some v, List.getElem?_set_self hlt, Or.inl ⟨v, rfl, hdecided.append nofun rfl⟩⟩
  | panic hactive =>
    -- A panic can come in any phase, but never after the slot was filled.
    have hjoined : phase ≠ .joined := by
      rintro rfl
      cases hactive
    obtain rfl := htells.slot_eq_none hjoined
    exact ⟨none, hslot, rfl, by simp, htells.hasPermit_of_context?⟩
  | drop =>
    obtain ⟨rfl, hpanic, -⟩ := htells
    exact ⟨none, hslot, rfl, List.mem_append_left _ hpanic, nofun⟩
  | bury =>
    obtain ⟨rfl, hpanic, -⟩ := htells
    exact ⟨none, hslot, rfl, List.mem_append_left _ hpanic⟩
  | joinLost =>
    obtain ⟨rfl, hpanic⟩ := htells
    exact ⟨none, hslot, Or.inr ⟨rfl, List.mem_append_left _ hpanic⟩⟩

end Advances

end Batch

/-! ### All tasks together -/

/-- To replace an element changes a sum by what the two of them add to it. -/
theorem sum_map_set_add {α : Type} (f : α → ℕ) {l : List α} {i : ℕ} {a : α} (a' : α)
    (h : l[i]? = some a) : ((l.set i a').map f).sum + f a = (l.map f).sum + f a' := by
  induction l generalizing i with
  | nil => cases h
  | cons first more ih =>
    cases i with
    | zero =>
      obtain rfl : first = a := Option.some_inj.mp h
      rw [List.set_cons_zero, List.map_cons, List.map_cons, List.sum_cons, List.sum_cons]
      omega
    | succ i =>
      have hmore := ih h
      rw [List.set_cons_succ, List.map_cons, List.map_cons, List.sum_cons, List.sum_cons]
      omega

theorem countP_eq_sum {α : Type} (p : α → Bool) (l : List α) :
    l.countP p = (l.map fun a => (p a).toNat).sum := by
  induction l with
  | nil => rfl
  | cons a more ih =>
    rw [List.countP_cons, List.map_cons, List.sum_cons, ih, Nat.add_comm]
    cases p a <;> rfl

theorem countP_set_add {α : Type} (p : α → Bool) {l : List α} {i : ℕ} {a : α} (a' : α)
    (h : l[i]? = some a) :
    (l.set i a').countP p + (p a).toNat = l.countP p + (p a').toNat := by
  rw [countP_eq_sum, countP_eq_sum]
  exact sum_map_set_add (fun a => (p a).toNat) a' h

theorem movesOf_append_self (trace : List (ℕ × Move)) (i : ℕ) (m : Move) :
    movesOf (trace ++ [(i, m)]) i = movesOf trace i ++ [m] := by
  simp [movesOf]

theorem movesOf_append_of_ne (trace : List (ℕ × Move)) {i j : ℕ} (h : i ≠ j) (m : Move) :
    movesOf (trace ++ [(i, m)]) j = movesOf trace j := by
  simp [movesOf, h]

namespace Board

/-- **A board on which nothing is leaked and nothing misplaced.** -/
structure Sound (b : Batch) (trace : List (ℕ × Move)) (s : Board) : Prop where
  length_phases : s.phases.length = b.cases.length
  length_slots : s.desk.slots.length = b.cases.length
  gauge : s.desk.gauge = s.liveContexts
  permits : s.desk.permits + s.takenPermits = b.capacity
  tells : ∀ (i : ℕ) (phase : Phase) (case : TestCase) (slot : Option Verdict),
    s.phases[i]? = some phase → b.cases[i]? = some case → s.desk.slots[i]? = some slot →
      b.Tells i case (movesOf trace i) phase slot

variable {b : Batch} {trace : List (ℕ × Move)} {s s' : Board}

theorem sound_start (b : Batch) : Sound b [] b.start where
  length_phases := List.length_map _
  length_slots := List.length_map _
  gauge := by
    have hnone : b.start.liveContexts = 0 := by
      rw [liveContexts, List.countP_eq_zero]
      simp [Batch.start, Phase.context?]
    rw [hnone]
    rfl
  permits := by
    have hnone : b.start.takenPermits = 0 := by
      rw [takenPermits, List.countP_eq_zero]
      simp [Batch.start, Phase.hasPermit]
    rw [hnone]
    rfl
  tells i phase case slot hphase hcase hslot := by
    have hqueued : phase = .queued := by
      rw [Batch.start, List.getElem?_map, hcase] at hphase
      exact (Option.some_inj.mp hphase).symm
    have hempty : slot = none := by
      rw [Batch.start, List.getElem?_map, hcase] at hslot
      exact (Option.some_inj.mp hslot).symm
    subst hqueued hempty
    exact ⟨rfl, nofun, rfl⟩

/-- **A step keeps a board sound.** -/
theorem Sound.step {i : ℕ} {m : Move} (hs : Sound b trace s) (h : b.Step s i m s') :
    Sound b (trace ++ [(i, m)]) s' := by
  cases h with
  | @mk phase phase' case d' hphase hcase hmove =>
  have hlt : i < b.cases.length := (List.getElem?_eq_some_iff.mp hcase).1
  have hlt' : i < s.desk.slots.length := by rwa [hs.length_slots]
  have htells := hs.tells i phase case _ hphase hcase (List.getElem?_eq_getElem hlt')
  refine ⟨?_, ?_, ?_, ?_, ?_⟩
  · rw [List.length_set, hs.length_phases]
  · rw [hmove.length_slots_eq, hs.length_slots]
  · -- The gauge and the live contexts change by the same.
    have hbefore := hs.gauge
    have hgauge := hmove.gauge_eq
    have hlive := countP_set_add (·.context?.isSome) phase' hphase
    simp only [liveContexts] at hbefore ⊢
    omega
  · have hbefore := hs.permits
    have hpermits := hmove.permits_eq
    have htaken := countP_set_add (·.hasPermit) phase' hphase
    simp only [takenPermits] at hbefore ⊢
    omega
  · intro j phaseⱼ caseⱼ slotⱼ hphaseⱼ hcaseⱼ hslotⱼ
    by_cases hj : i = j
    · -- The task that has moved.
      subst hj
      obtain ⟨slot', hslot', htells'⟩ := hmove.tells (List.getElem?_eq_getElem hlt') htells
      have hltp : i < s.phases.length := by rwa [hs.length_phases]
      rw [List.getElem?_set_self hltp] at hphaseⱼ
      obtain rfl := Option.some_inj.mp hphaseⱼ
      obtain rfl := Option.some_inj.mp (hcase.symm.trans hcaseⱼ)
      obtain rfl := Option.some_inj.mp (hslot'.symm.trans hslotⱼ)
      rw [movesOf_append_self]
      exact htells'
    · -- Another one: its phase, its slot and its moves are what they were.
      rw [List.getElem?_set_ne hj] at hphaseⱼ
      rw [hmove.slot_eq_of_ne htells (Ne.symm hj)] at hslotⱼ
      rw [movesOf_append_of_ne trace hj]
      exact hs.tells j phaseⱼ caseⱼ slotⱼ hphaseⱼ hcaseⱼ hslotⱼ

/-- **A reached board is sound.** -/
theorem sound_of_reached (h : b.Reached trace s) : Sound b trace s := by
  induction h with
  | start => exact sound_start b
  | step _ hstep ih => exact ih.step hstep

/-- **No more contexts are live than there are permits.** -/
theorem Sound.liveContexts_le (hs : Sound b trace s) : s.liveContexts ≤ b.capacity := by
  have hpermits := hs.permits
  -- Permits are counted, contexts are not: it is the owner of a context who holds a permit.
  have hle : s.liveContexts ≤ s.takenPermits := by
    refine List.countP_mono_left fun phase hphase hcontext => ?_
    obtain ⟨i, hi, hget⟩ := List.getElem_of_mem hphase
    have hcase : i < b.cases.length := by rwa [← hs.length_phases]
    have hslot : i < s.desk.slots.length := by rwa [hs.length_slots]
    refine (hs.tells i phase _ _ ?_ (List.getElem?_eq_getElem hcase)
      (List.getElem?_eq_getElem hslot)).hasPermit_of_context? hcontext
    rw [List.getElem?_eq_getElem hi, hget]
  omega

theorem results?_eq_some_iff {results : List Verdict} :
    s.results? = some results ↔
      (∀ phase ∈ s.phases, phase = .joined) ∧ results = s.desk.slots.map (·.getD .lost) := by
  have hjoined : s.phases.all (·.isJoined) = true ↔ ∀ phase ∈ s.phases, phase = .joined := by
    rw [List.all_eq_true]
    refine forall₂_congr fun phase _ => ?_
    cases phase <;> simp [Phase.isJoined]
  rw [results?, ← hjoined]
  by_cases h : s.phases.all (·.isJoined) = true
  · rw [if_pos h, Option.some_inj, eq_comm]
    exact ⟨fun heq => ⟨h, heq⟩, And.right⟩
  · rw [if_neg h]
    exact ⟨nofun, fun hall => absurd hall.1 h⟩

theorem Sound.length_results (hs : Sound b trace s) {results : List Verdict}
    (h : s.results? = some results) : results.length = b.cases.length := by
  rw [(results?_eq_some_iff.mp h).2, List.length_map, hs.length_slots]

/-- What a joined task has put into its slot, or not. -/
theorem Sound.joined_of_results? (hs : Sound b trace s) {results : List Verdict}
    (h : s.results? = some results) {i : ℕ} {case : TestCase} (hcase : b.cases[i]? = some case) :
    (∃ v, results[i]? = some v ∧ b.Decided case (movesOf trace i) v) ∨
      (results[i]? = some .lost ∧ Move.panic ∈ movesOf trace i) := by
  obtain ⟨hall, rfl⟩ := results?_eq_some_iff.mp h
  have hlt : i < b.cases.length := (List.getElem?_eq_some_iff.mp hcase).1
  have hphase : i < s.phases.length := by rwa [hs.length_phases]
  have hslot : i < s.desk.slots.length := by rwa [hs.length_slots]
  have htells := hs.tells i _ case _ (List.getElem?_eq_getElem hphase) hcase
    (List.getElem?_eq_getElem hslot)
  rw [hall _ (List.getElem_mem hphase)] at htells
  rw [List.getElem?_map, List.getElem?_eq_getElem hslot]
  rcases htells with ⟨v, hv, hdecided⟩ | ⟨hnone, hpanic⟩
  · exact Or.inl ⟨v, by rw [hv]; rfl, hdecided⟩
  · exact Or.inr ⟨by rw [hnone]; rfl, hpanic⟩

end Board

/-- **No context is leaked and no verdict misplaced**, whatever the order of the moves. On every
board that is reached the gauge shows the contexts that have been provisioned and not dropped yet;
it is never below zero and never above the greatest number of tasks that may be at work, which is
at least one. When the verification returns, the gauge is back at zero, where it started, and there
is one verdict for each case. The verdict on a case is that of a lost task just when its task has
panicked; otherwise it is the one verdict that its own task has come to. -/
theorem Batch.Reached.accounts {b : Batch} {trace : List (ℕ × Move)} {s : Board}
    (h : b.Reached trace s) :
    s.desk.gauge = s.liveContexts ∧ 0 ≤ s.desk.gauge ∧
      s.desk.gauge ≤ max 1 b.config.maxParallel.toNat ∧
    ∀ results, s.results? = some results →
      s.desk.gauge = b.start.desk.gauge ∧ results.length = b.cases.length ∧
      ∀ i < b.cases.length,
        (results[i]? = some .lost ↔ Move.panic ∈ movesOf trace i) ∧
        (Move.panic ∉ movesOf trace i →
          ∃ v, results[i]? = some v ∧ (movesOf trace i).filterMap Move.verdict? = [v]) := by
  have hs := Board.sound_of_reached h
  have hgauge := hs.gauge
  have hlive := hs.liveContexts_le
  have hcapacity : b.capacity = max 1 b.config.maxParallel.toNat := rfl
  refine ⟨hgauge, by omega, by omega, fun results hresults => ?_⟩
  refine ⟨?_, hs.length_results hresults, fun i hi => ?_⟩
  · -- A joined task owns no context.
    have hnone : s.liveContexts = 0 := by
      rw [Board.liveContexts, List.countP_eq_zero]
      rintro phase hphase
      rw [(Board.results?_eq_some_iff.mp hresults).1 phase hphase]
      exact Bool.false_ne_true
    rw [hgauge, hnone]
    rfl
  · rcases hs.joined_of_results? hresults (List.getElem?_eq_getElem hi) with
      ⟨v, hv, hdecided⟩ | ⟨hlost, hpanic⟩
    · -- No verdict that a task comes to is worded like that of a lost task.
      obtain ⟨m, -, hm, hconcludes⟩ := hdecided.concluded
      have hne : v ≠ .lost := hconcludes.verdict_ne_lost hm
      refine ⟨⟨fun heq => ?_, fun hpanic => absurd hpanic hdecided.calm⟩,
        fun _ => ⟨v, hv, hdecided.verdicts⟩⟩
      exact absurd (Option.some_inj.mp (hv.symm.trans heq)) hne
    · exact ⟨⟨fun _ => hpanic, fun _ => hlost⟩, fun hcalm => absurd hpanic hcalm⟩

/-- Two cases, and no more than one of them at a time. -/
def pairOfCases : Batch where
  artifact := ""
  config := { maxParallel := 0 }
  cases := [{}, {}]
  ends _ _ _ := False

/-- The second task finds no room for a context. -/
def pairOfCasesVerdict : Verdict := .crash 3 (Refusal.noDirectory "no space left").message

/-- The first task panics while it owns a context and the only permit. Once it has dropped them the
second one goes on and comes to a verdict. -/
theorem pairOfCases_accounts :
    ∃ trace s, pairOfCases.Reached trace s ∧
      s.results? = some [.lost, pairOfCasesVerdict] ∧ s.desk.gauge = 0 ∧
      Move.panic ∈ movesOf trace 0 ∧
      (movesOf trace 1).filterMap Move.verdict? = [pairOfCasesVerdict] := by
  have hadmitted : pairOfCases.Reached _ ⟨[.admitted, .queued], ⟨0, 0, [none, none]⟩⟩ :=
    Batch.Reached.start.step (.mk (i := 0) rfl rfl (.enter (by decide)))
  have hequipped : pairOfCases.Reached _ ⟨[.equipped, .queued], ⟨0, 0, [none, none]⟩⟩ :=
    hadmitted.step (.mk (i := 0) rfl rfl .equip)
  have hprovisioned : pairOfCases.Reached _
      ⟨[.provisioned (Context.provision ""), .queued], ⟨0, 1, [none, none]⟩⟩ :=
    hequipped.step (.mk (i := 0) rfl rfl .provision)
  have hpanic : pairOfCases.Reached _
      ⟨[.unwinding (some (Context.provision "")) true, .queued], ⟨0, 1, [none, none]⟩⟩ :=
    hprovisioned.step (.mk (i := 0) rfl rfl (.panic rfl))
  have hdropped : pairOfCases.Reached _
      ⟨[.unwinding none true, .queued], ⟨0, 0, [none, none]⟩⟩ :=
    hpanic.step (.mk (i := 0) rfl rfl .drop)
  have hburied : pairOfCases.Reached _ ⟨[.lost, .queued], ⟨1, 0, [none, none]⟩⟩ :=
    hdropped.step (.mk (i := 0) rfl rfl .bury)
  have hadmitted' : pairOfCases.Reached _ ⟨[.lost, .admitted], ⟨0, 0, [none, none]⟩⟩ :=
    hburied.step (.mk (i := 1) rfl rfl (.enter (by decide)))
  have hequipped' : pairOfCases.Reached _ ⟨[.lost, .equipped], ⟨0, 0, [none, none]⟩⟩ :=
    hadmitted'.step (.mk (i := 1) rfl rfl .equip)
  have hrefused : pairOfCases.Reached _
      ⟨[.lost, .cleared pairOfCasesVerdict], ⟨0, 0, [none, none]⟩⟩ :=
    hequipped'.step (.mk (i := 1) rfl rfl (.refuse (.noDirectory "no space left") 3))
  have hover : pairOfCases.Reached _
      ⟨[.lost, .returned 1 pairOfCasesVerdict], ⟨1, 0, [none, none]⟩⟩ :=
    hrefused.step (.mk (i := 1) rfl rfl .release)
  have hjoined : pairOfCases.Reached _
      ⟨[.lost, .joined], ⟨1, 0, [none, some pairOfCasesVerdict]⟩⟩ :=
    hover.step (.mk (i := 1) rfl rfl .join)
  have hdone : pairOfCases.Reached _
      ⟨[.joined, .joined], ⟨1, 0, [none, some pairOfCasesVerdict]⟩⟩ :=
    hjoined.step (.mk (i := 0) rfl rfl .joinLost)
  obtain ⟨-, -, -, hreturned⟩ := hdone.accounts
  obtain ⟨hgauge, -, hslots⟩ := hreturned _ rfl
  obtain ⟨hlost, -⟩ := hslots 0 (by decide)
  obtain ⟨hcalm, hown⟩ := hslots 1 (by decide)
  refine ⟨_, _, hdone, rfl, hgauge, hlost.mp rfl, ?_⟩
  have hne : pairOfCasesVerdict ≠ .lost := Verdict.crash_ne_lost (Refusal.message_ne _)
  obtain ⟨v, hv, hverdicts⟩ := hown fun hmem => hne (Option.some_inj.mp (hcalm.mpr hmem))
  obtain rfl : pairOfCasesVerdict = v := Option.some_inj.mp hv
  exact hverdicts

end CallChain
