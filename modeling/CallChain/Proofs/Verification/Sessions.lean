import CallChain.Service
import CallChain.Tool.Run
import Mathlib.Data.Nat.Notation

/-!
# Sessions that are cut short

A session with a limit in time is a session without one that may end early
(`CallChain.Session.Cut`): if it is not interrupted it answers the same and sees the same. This is
asked of a connection for each call (`CallChain.Connection.OnlyCuts`), and then holds of whole runs
of a tool (`CallChain.Connection.OnlyCuts.invoke`). Stand-in services are such connections
(`CallChain.Service.onlyCuts_call`).
-/

set_option autoImplicit false

namespace CallChain

variable {α β : Type}

namespace Session

/-- **One session is another one that may have been cut short.** -/
def Cut (short long : Session α) : Prop :=
  ∀ (traffic traffic' : Traffic) (a : α),
    short.run.run traffic = (.ok a, traffic') → long.run.run traffic = (.ok a, traffic')

theorem Cut.refl (s : Session α) : Cut s s := fun _ _ _ h => h

/-- How a session with two parts runs. -/
theorem run_bind (s : Session α) (f : α → Session β) (traffic : Traffic) :
    (s >>= f).run.run traffic =
      match s.run.run traffic with
      | (.ok a, traffic') => (f a).run.run traffic'
      | (.error e, traffic') => (.error e, traffic') := by
  rw [ExceptT.run_bind, StateT.run_bind]
  rcases s.run.run traffic with ⟨answer | a, traffic'⟩ <;> rfl

theorem Cut.bind {short long : Session α} {f g : α → Session β} (h : Cut short long)
    (hf : ∀ a, Cut (f a) (g a)) : Cut (short >>= f) (long >>= g) := by
  intro traffic traffic' b hb
  rw [run_bind] at hb ⊢
  cases hshort : short.run.run traffic with
  | mk answer between =>
    rw [hshort] at hb
    cases answer with
    | error e => cases hb
    | ok a =>
      rw [h traffic between a hshort]
      exact hf a between traffic' b hb

end Session

/-- **A limit only cuts sessions short**: as long as they last they are the same. -/
def Connection.OnlyCuts (connection : Connection) : Prop :=
  ∀ (limit : ℕ) (r : Request), Session.Cut (connection (some limit) r) (connection none r)

namespace Connection.OnlyCuts

variable {connection : Connection}

theorem runFrom (h : connection.OnlyCuts) (limit : ℕ) (input : Json) (steps : List ToolStep)
    (step : ℕ) (previous? : Option Json) :
    Session.Cut (Tool.runFrom (connection (some limit)) input step previous? steps)
      (Tool.runFrom (connection none) input step previous? steps) := by
  induction steps generalizing step previous? with
  | nil => exact Session.Cut.refl _
  | cons first later ih =>
    rw [Tool.runFrom, Tool.runFrom]
    split
    · exact Session.Cut.refl _
    · -- Both runs ask for the same, and go on alike from one answer.
      refine (h limit _).bind fun answer => ?_
      split
      · exact Session.Cut.refl _
      · split
        · exact ih _ _
        · exact Session.Cut.refl _

/-- **A run of a tool is cut short by a limit**, and not changed by it. -/
theorem invoke (h : connection.OnlyCuts) (limit : ℕ) (t : Tool) (input : Json) :
    Session.Cut (t.invoke (connection (some limit)) input)
      (t.invoke (connection none) input) := by
  rw [Tool.invoke, Tool.invoke]
  split
  · exact Session.Cut.refl _
  · exact h.runFrom limit input t.steps 0 none

end Connection.OnlyCuts

end CallChain
