import CallChain.Json.Decoder
import CallChain.Proofs.Entries
import CallChain.Proofs.Path.Writing

/-!
# Sources that hold a value

A source is a tree with places beside its parts, and it may list the members of an object in any
order. A source holds a JSON value when it is that value in the same order, whatever the places
(`CallChain.Source.Holds`). A free value that is in canonical form is read from every source that
holds it (`CallChain.Decoder.anyFrom_of_holds`).
-/

set_option autoImplicit false

namespace CallChain
namespace Source

mutual

/-- **A source holds a value**: it is that value, with places beside its parts. -/
inductive Holds : Source → Json → Prop
  | scalar (v : Scalar) (span : Span) : Holds (.scalar v span) (scalarJson v)
  | list {items : List (Source × Mark)} {js : List Json} (start close : Mark)
      (h : HoldsItems items js) : Holds (.list start items (.ok close)) (.arr js)
  | record {members : List (MemberName × Source × Mark)} {js : List (String × Json)}
      (start close : Mark) (h : HoldsMembers members js) :
      Holds (.record start members (.ok close)) (.obj js)

/-- Items hold values, one by one. -/
inductive HoldsItems : List (Source × Mark) → List Json → Prop
  | nil : HoldsItems [] []
  | cons {s : Source} {j : Json} {items : List (Source × Mark)} {js : List Json} (settled : Mark)
      (hs : Holds s j) (h : HoldsItems items js) : HoldsItems ((s, settled) :: items) (j :: js)

/-- Members hold members of the same names, one by one. -/
inductive HoldsMembers : List (MemberName × Source × Mark) → List (String × Json) → Prop
  | nil : HoldsMembers [] []
  | cons {s : Source} {j : Json} {members : List (MemberName × Source × Mark)}
      {js : List (String × Json)} (k : MemberName) (settled : Mark)
      (hs : Holds s j) (h : HoldsMembers members js) :
      HoldsMembers ((k, s, settled) :: members) ((k.text, j) :: js)

end

mutual

/-- A value made into a source is held by it. -/
theorem holds_ofJson : ∀ j : Json, (ofJson j).Holds j
  | .null => .scalar .null _
  | .bool b => .scalar (.bool b) _
  | .num n => .scalar (.num n) _
  | .str text => .scalar (.str text) _
  | .arr items => .list _ _ (holdsItems_ofItems items)
  | .obj members => .record _ _ (holdsMembers_ofMembers members)

theorem holdsItems_ofItems : ∀ items : List Json, HoldsItems (ofItems items) items
  | [] => .nil
  | j :: more => .cons _ (holds_ofJson j) (holdsItems_ofItems more)

theorem holdsMembers_ofMembers :
    ∀ members : List (String × Json), HoldsMembers (ofMembers members) members
  | [] => .nil
  | (k, j) :: more => .cons ⟨k, {}⟩ _ (holds_ofJson j) (holdsMembers_ofMembers more)

end

/-! ### What holds a value of a kind -/

theorem Holds.exists_eq_str {s : Source} {text : String} (h : s.Holds (.str text)) :
    ∃ span, s = .scalar (.str text) span := by
  generalize hj : Json.str text = j at h
  cases h with
  | scalar v span =>
    cases v with
    | str other =>
      cases hj
      exact ⟨span, rfl⟩
    | null | bool | num => cases hj
  | list | record => cases hj

theorem Holds.exists_eq_null {s : Source} (h : s.Holds .null) :
    ∃ span, s = .scalar .null span := by
  generalize hj : Json.null = j at h
  cases h with
  | scalar v span =>
    cases v with
    | null => exact ⟨span, rfl⟩
    | bool | num | str => cases hj
  | list | record => cases hj

theorem Holds.exists_eq_num {s : Source} {n : Number} (h : s.Holds (.num n)) :
    ∃ span, s = .scalar (.num n) span := by
  generalize hj : Json.num n = j at h
  cases h with
  | scalar v span =>
    cases v with
    | num other =>
      cases hj
      exact ⟨span, rfl⟩
    | null | bool | str => cases hj
  | list | record => cases hj

theorem Holds.exists_eq_bool {s : Source} {b : Bool} (h : s.Holds (.bool b)) :
    ∃ span, s = .scalar (.bool b) span := by
  generalize hj : Json.bool b = j at h
  cases h with
  | scalar v span =>
    cases v with
    | bool other =>
      cases hj
      exact ⟨span, rfl⟩
    | null | str | num => cases hj
  | list | record => cases hj

theorem Holds.exists_eq_list {s : Source} {js : List Json} (h : s.Holds (.arr js)) :
    ∃ start items close, s = .list start items (.ok close) ∧ HoldsItems items js := by
  generalize hj : Json.arr js = j at h
  cases h with
  | scalar v span => cases v <;> cases hj
  | list start close hitems =>
    cases hj
    exact ⟨start, _, close, rfl, hitems⟩
  | record => cases hj

theorem Holds.exists_eq_record {s : Source} {js : List (String × Json)} (h : s.Holds (.obj js)) :
    ∃ start members close, s = .record start members (.ok close) ∧ HoldsMembers members js := by
  generalize hj : Json.obj js = j at h
  cases h with
  | scalar v span => cases v <;> cases hj
  | list => cases hj
  | record start close hmembers =>
    cases hj
    exact ⟨start, _, close, rfl, hmembers⟩

end Source

/-! ### Free values -/

namespace Decoder

mutual

/-- **A free value in canonical form is read from every source that holds it.** -/
theorem anyFrom_of_holds {s : Source} :
    ∀ {j : Json}, s.Holds j → j.Canonical → anyFrom s = .ok j
  | _, .scalar v span, _ => rfl
  | _, .list start close hitems, hcanonical => by
    rw [anyFrom, anyItems_of_holds hitems hcanonical]
    rfl
  | _, .record start close hmembers, hcanonical => by
    rw [anyFrom, anyPairs_of_holds hmembers hcanonical.2]
    exact congrArg (fun entries => Except.ok (Json.obj entries))
      (Entries.ofPairs_eq_self hcanonical.1)

theorem anyItems_of_holds {items : List (Source × Mark)} :
    ∀ {js : List Json}, Source.HoldsItems items js → Json.CanonicalItems js →
      anyItems items = .ok js
  | _, .nil, _ => rfl
  | _, .cons settled hs hmore, hcanonical => by
    rw [anyItems, anyFrom_of_holds hs hcanonical.1, anyItems_of_holds hmore hcanonical.2]
    rfl

theorem anyPairs_of_holds {members : List (MemberName × Source × Mark)} :
    ∀ {js : List (String × Json)}, Source.HoldsMembers members js → Json.CanonicalMembers js →
      anyPairs members = .ok js
  | _, .nil, _ => rfl
  | _, .cons k settled hs hmore, hcanonical => by
    rw [anyPairs, anyFrom_of_holds hs hcanonical.1, anyPairs_of_holds hmore hcanonical.2]
    rfl

end

end Decoder

end CallChain
