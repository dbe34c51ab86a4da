import CallChain.Verification.Context

/-!
# Benches

A bench holds contexts by name. A name stays known after its context is gone.

* `Bench`, `Bench.context?`, `Bench.isKnown`, `Bench.live`.
* `Bench.put`, `Bench.remove`: a context comes, replacing the one before it, or goes.
-/

set_option autoImplicit false

namespace CallChain

/-- **Contexts by name.** A name whose context is gone has none. -/
structure Bench where
  places : Entries (Option Context) := []
deriving Inhabited

namespace Bench

/-- The context of a name, if it is there. -/
def context? (b : Bench) (name : String) : Option Context := (Entries.get? b.places name).join

/-- Whether there ever was a context of this name. -/
def isKnown (b : Bench) (name : String) : Bool := Entries.has b.places name

/-- How many contexts are there. -/
def live (b : Bench) : Nat := (b.places.filter (·.2.isSome)).length

/-- Gives a name a context. -/
def put (b : Bench) (name : String) (c : Context) : Bench := ⟨Entries.insert name (some c) b.places⟩

/-- Takes the context of a name away, if there is one. -/
def remove (b : Bench) (name : String) : Bench :=
  if b.isKnown name then ⟨Entries.insert name none b.places⟩ else b

end Bench

end CallChain
