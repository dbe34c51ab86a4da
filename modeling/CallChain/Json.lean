import CallChain.Entries
import CallChain.Number

/-!
# JSON values

The one dynamic value of the library. An object is the list of its members in the order of their
names by code point, each name once; `Json.Canonical` says so at every depth, and every operation
here keeps it.

* `Members`: the members of an object.
* `Json.same`: equality of JSON values, under which the two zeros agree (`Json.same_refl`).
* `Json.member?`: the member of an object, nothing for all other values.
-/

set_option autoImplicit false

namespace CallChain

/-- **A JSON value.** -/
inductive Json where
  | null
  | bool (value : Bool)
  | num (value : Number)
  | str (value : String)
  | arr (items : List Json)
  | obj (members : List (String × Json))
deriving Inhabited

/-- The members of an object, in the order of their names. -/
abbrev Members := Entries Json

/-! ### Values -/

namespace Json

/-- An object from pairs in any order; of several with one name the last counts. -/
def ofPairs (pairs : List (String × Json)) : Json := .obj (Entries.ofPairs pairs)

/-- A whole number. -/
def nat (n : Nat) : Json := .num (.int n)

/-- The member of an object; other values have none. -/
def member? : Json → String → Option Json
  | .obj members, name => Entries.get? members name
  | _, _ => none

/-- The text of a string. -/
def string? : Json → Option String
  | .str s => some s
  | _ => none

/-- Whether the value is an object. -/
def isObject : Json → Bool
  | .obj _ => true
  | _ => false

/-- Whether the value is null. -/
def isNull : Json → Bool
  | .null => true
  | _ => false

mutual

/-- **Equality of JSON values**: the same structure with the same leaves. Whole numbers differ
from doubles; the two zeros of doubles agree. -/
def same : Json → Json → Bool
  | .null, .null => true
  | .bool a, .bool b => a == b
  | .num a, .num b => a.same b
  | .str a, .str b => a == b
  | .arr a, .arr b => sameItems a b
  | .obj a, .obj b => sameMembers a b
  | _, _ => false

/-- Equality of two lists of items, place by place. -/
def sameItems : List Json → List Json → Bool
  | [], [] => true
  | a :: as, b :: bs => same a b && sameItems as bs
  | _, _ => false

/-- Equality of two lists of members, place by place. -/
def sameMembers : List (String × Json) → List (String × Json) → Bool
  | [], [] => true
  | (k, a) :: as, (l, b) :: bs => k == l && same a b && sameMembers as bs
  | _, _ => false

end

mutual

/-- Every value equals itself. -/
@[simp] theorem same_refl : ∀ j : Json, j.same j = true
  | .null => rfl
  | .bool _ => by simp [same]
  | .num _ => by simp [same]
  | .str _ => by simp [same]
  | .arr items => by simpa [same] using sameItems_refl items
  | .obj members => by simpa [same] using sameMembers_refl members

theorem sameItems_refl : ∀ items : List Json, sameItems items items = true
  | [] => rfl
  | j :: rest => by simp [sameItems, same_refl j, sameItems_refl rest]

theorem sameMembers_refl : ∀ members : List (String × Json), sameMembers members members = true
  | [] => rfl
  | (_, j) :: rest => by simp [sameMembers, same_refl j, sameMembers_refl rest]

end

mutual

/-- **Objects in canonical form** at every depth: names strictly increasing. -/
def Canonical : Json → Prop
  | .arr items => CanonicalItems items
  | .obj members => (members.map (·.1)).Pairwise (· < ·) ∧ CanonicalMembers members
  | _ => True

/-- Every item is canonical. -/
def CanonicalItems : List Json → Prop
  | [] => True
  | j :: rest => Canonical j ∧ CanonicalItems rest

/-- Every member's value is canonical. -/
def CanonicalMembers : List (String × Json) → Prop
  | [] => True
  | (_, j) :: rest => Canonical j ∧ CanonicalMembers rest

end

mutual

/-- How many values a value consists of, itself included. -/
def size : Json → Nat
  | .arr items => 1 + sizeItems items
  | .obj members => 1 + sizeMembers members
  | _ => 1

/-- The sizes of items, added up. -/
def sizeItems : List Json → Nat
  | [] => 0
  | j :: rest => size j + sizeItems rest

/-- The sizes of the members' values, added up. -/
def sizeMembers : List (String × Json) → Nat
  | [] => 0
  | (_, j) :: rest => size j + sizeMembers rest

end

end Json

end CallChain
