import CallChain.Verification.Context
import Mathlib.Data.Int.Notation
import Mathlib.Data.Nat.Notation

/-!
# The tasks of a verification

Test cases are run by tasks, one for each case, at the same time. A task waits for a permit, obtains
a caller, provisions a context, runs the tool in it, comes to a verdict, tears the context down,
gives the permit back and is joined. It can fail to provision, which is a verdict too, and it can
panic between any two moves; then it drops what it owns, the context first and the permit last.

What the tasks share is a desk: the permits that are left, a gauge of live contexts and one slot for
each verdict. The order of the moves is up to the scheduler, so a verification is a relation.

| move | phase | desk |
|---|---|---|
| `enter` | queued to admitted | one permit less |
| `equip` | admitted to equipped | |
| `provision` | equipped to provisioned | the gauge goes up |
| `refuse` | equipped to cleared | |
| `run` | provisioned to ran | |
| `judge` | ran to judged | |
| `tearDown` | judged to cleared | the gauge goes down |
| `release` | cleared to returned | one permit more |
| `join` | returned or lost to joined | the verdict, if any, goes to its slot |
| `panic` | any before returned to unwinding | |
| `drop` | unwinding with a context to unwinding without | the gauge goes down |
| `bury` | unwinding without a context to lost | the permit comes back, if there was one |

* `CallChain.Batch`: what is verified, and how sessions may end.
* `CallChain.Batch.Advances`, `CallChain.Batch.Step`: the moves of one task, and of all of them.
* `CallChain.Batch.Reached`: what a sequence of moves leads to.
* `CallChain.Board.results?`: what a verification returns, once all tasks have been joined.
-/

set_option autoImplicit false

namespace CallChain

/-! ### What is verified -/

/-- **Test cases under verification**: the text of the tool, and how a session in which a tool is
run on a case may end. -/
structure Batch where
  artifact : String
  config : VerifierConfig
  cases : List TestCase
  ends : Tool → TestCase → Except Interruption (Except ToolError Json) → Prop

/-- Why a context cannot be provisioned. -/
inductive Refusal where
  | noDirectory (reason : String)
  | notWritten (path reason : String)

/-- The wording of a refusal. -/
def Refusal.message : Refusal → String
  | .noDirectory reason => "Failed to create context directory: " ++ reason
  | .notWritten path reason => "Failed to write tool artifact to " ++ path ++ ": " ++ reason

/-- The verdict of a crash. -/
def Verdict.crash (elapsed : UInt64) (text : String) : Verdict :=
  { status := .crashFailed, elapsed := elapsed, failure? := some (.crashed text) }

/-- What is said of a case whose task panicked. -/
def Verdict.lostText : String := "verification task failed"

/-- **The verdict on a case whose task panicked.** -/
def Verdict.lost : Verdict := .crash 0 Verdict.lostText

/-! ### Tasks -/

/-- **How far a task is**, with all that it owns and has found out. -/
inductive Phase where
  | queued
  | admitted
  | equipped
  | provisioned (context : Context)
  | ran (context : Context) (outcome : Outcome)
  | judged (context : Context) (verdict : Verdict)
  | cleared (verdict : Verdict)
  /-- The task has returned its verdict, with the number of its case. -/
  | returned (index : ℕ) (verdict : Verdict)
  /-- The task has panicked and still owns a context or a permit. -/
  | unwinding (context? : Option Context) (permit : Bool)
  /-- The task has panicked and owns nothing. -/
  | lost
  | joined

namespace Phase

/-- The context that a task owns. -/
def context? : Phase → Option Context
  | .provisioned c => some c
  | .ran c _ => some c
  | .judged c _ => some c
  | .unwinding c? _ => c?
  | _ => none

/-- Whether a task owns a permit. -/
def hasPermit : Phase → Bool
  | .queued => false
  | .returned _ _ => false
  | .unwinding _ permit => permit
  | .lost => false
  | .joined => false
  | _ => true

/-- Whether a task is at work, so that it may panic. -/
def isActive : Phase → Bool
  | .returned _ _ => false
  | .unwinding _ _ => false
  | .lost => false
  | .joined => false
  | _ => true

/-- Whether a task has been joined. -/
def isJoined : Phase → Bool
  | .joined => true
  | _ => false

end Phase

/-- **What a task does.** -/
inductive Move where
  | enter
  | equip
  | provision
  | refuse (verdict : Verdict)
  | run
  | judge (verdict : Verdict)
  | tearDown
  | release
  | join
  | panic
  | drop
  | bury

namespace Move

/-- The verdict that a move comes to. -/
def verdict? : Move → Option Verdict
  | .refuse v => some v
  | .judge v => some v
  | _ => none

end Move

/-- **What tasks share**: the permits that are left, the gauge of live contexts, and the verdicts by
the number of the case. -/
structure Desk where
  permits : ℕ
  gauge : ℤ
  slots : List (Option Verdict)

namespace Batch

/-- How many tasks may be at work at a time. -/
def capacity (b : Batch) : ℕ := max 1 b.config.maxParallel.toNat

/-- **What one task may do** for a case, from a phase and a desk to the next ones. -/
inductive Advances (b : Batch) (index : ℕ) (case : TestCase) :
    Phase → Desk → Move → Phase → Desk → Prop
  | enter {d : Desk} (h : 0 < d.permits) :
      Advances b index case .queued d .enter .admitted { d with permits := d.permits - 1 }
  | equip {d : Desk} : Advances b index case .admitted d .equip .equipped d
  | provision {d : Desk} :
      Advances b index case .equipped d .provision (.provisioned (Context.provision b.artifact))
        { d with gauge := d.gauge + 1 }
  | refuse {d : Desk} (refusal : Refusal) (elapsed : UInt64) :
      Advances b index case .equipped d (.refuse (.crash elapsed refusal.message))
        (.cleared (.crash elapsed refusal.message)) d
  | run {d : Desk} {c : Context} {t : Tool}
      {ended : Except Interruption (Except ToolError Json)} (htool : c.tool = .ok t)
      (hends : b.ends t case ended) :
      Advances b index case (.provisioned c) d .run
        (.ran { c with state := .running } (Context.outcomeOf ended)) d
  | misread {d : Desk} {c : Context} {text : String} (htool : c.tool = .error text) :
      Advances b index case (.provisioned c) d .run (.ran c (.crashed text)) d
  | judge {d : Desk} {c : Context} {o : Outcome} {v : Verdict} (elapsed : UInt64)
      (hv : v = CallChain.judge o case.expected? b.config.timeout elapsed) :
      Advances b index case (.ran c o) d (.judge v) (.judged (c.finish v.status.state) v) d
  | tearDown {d : Desk} {c : Context} {v : Verdict} :
      Advances b index case (.judged c v) d .tearDown (.cleared v)
        { d with gauge := d.gauge - 1 }
  | release {d : Desk} {v : Verdict} :
      Advances b index case (.cleared v) d .release (.returned index v)
        { d with permits := d.permits + 1 }
  | join {d : Desk} {place : ℕ} {v : Verdict} :
      Advances b index case (.returned place v) d .join .joined
        { d with slots := d.slots.set place (some v) }
  | panic {d : Desk} {phase : Phase} (h : phase.isActive = true) :
      Advances b index case phase d .panic (.unwinding phase.context? phase.hasPermit) d
  | drop {d : Desk} {c : Context} {permit : Bool} :
      Advances b index case (.unwinding (some c) permit) d .drop (.unwinding none permit)
        { d with gauge := d.gauge - 1 }
  | bury {d : Desk} {permit : Bool} :
      Advances b index case (.unwinding none permit) d .bury .lost
        { d with permits := d.permits + permit.toNat }
  | joinLost {d : Desk} : Advances b index case .lost d .join .joined d

end Batch

/-! ### All tasks together -/

/-- **The state of a verification**: how far each task is, and what they share. -/
structure Board where
  phases : List Phase
  desk : Desk

namespace Board

/-- How many contexts have been provisioned and not been dropped yet. -/
def liveContexts (s : Board) : ℕ := s.phases.countP (·.context?.isSome)

/-- How many permits are taken. -/
def takenPermits (s : Board) : ℕ := s.phases.countP (·.hasPermit)

/-- **What a verification returns**, once all tasks have been joined: the verdicts in the slots, and
that of a lost task where there is none. -/
def results? (s : Board) : Option (List Verdict) :=
  if s.phases.all (·.isJoined) then some (s.desk.slots.map (·.getD .lost)) else none

end Board

namespace Batch

/-- All tasks wait for a permit. -/
def start (b : Batch) : Board where
  phases := b.cases.map fun _ => .queued
  desk := ⟨b.capacity, 0, b.cases.map fun _ => none⟩

/-- **A step of a verification**: one task makes a move. -/
inductive Step (b : Batch) : Board → ℕ → Move → Board → Prop
  | mk {s : Board} {i : ℕ} {m : Move} {phase phase' : Phase} {case : TestCase} {d' : Desk}
      (hphase : s.phases[i]? = some phase) (hcase : b.cases[i]? = some case)
      (h : b.Advances i case phase s.desk m phase' d') :
      Step b s i m ⟨s.phases.set i phase', d'⟩

/-- **What a sequence of moves leads to** from the start. A trace lists the moves with the numbers
of the tasks that made them. -/
inductive Reached (b : Batch) : List (ℕ × Move) → Board → Prop
  | start : Reached b [] b.start
  | step {trace : List (ℕ × Move)} {s s' : Board} {i : ℕ} {m : Move} (h : Reached b trace s)
      (hstep : b.Step s i m s') : Reached b (trace ++ [(i, m)]) s'

end Batch

/-- The moves of one task in a trace. -/
def movesOf (trace : List (ℕ × Move)) (i : ℕ) : List Move :=
  trace.filterMap fun (j, m) => if j = i then some m else none

end CallChain
