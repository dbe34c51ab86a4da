/-!
# Tables in the order of their names

A table lists pairs of a name and a value in the order of the names by code point, each name once.

* `Entries.get?`, `Entries.insert`: look-up and update (`Entries.get?_insert_self`,
  `Entries.get?_insert_of_ne`).
* `Entries.ofPairs`: a table from pairs in any order.
-/

set_option autoImplicit false

namespace CallChain

/-- **A table**: names with their values, in the order of the names. -/
abbrev Entries (α : Type) := List (String × α)

namespace Entries

variable {α : Type}

/-- The value of a name. -/
def get? : Entries α → String → Option α
  | [], _ => none
  | (k, v) :: rest, name => if k = name then some v else get? rest name

/-- Sets the value of a name: in place if the name is there, else at its place in the order. -/
def insert (name : String) (value : α) : Entries α → Entries α
  | [] => [(name, value)]
  | (k, v) :: rest =>
    if k = name then (name, value) :: rest
    else if name < k then (name, value) :: (k, v) :: rest
    else (k, v) :: insert name value rest

/-- Whether a name is there. -/
def has (entries : Entries α) (name : String) : Bool := (get? entries name).isSome

/-- The table of a list of pairs; of several with one name the last counts. -/
def ofPairs (pairs : List (String × α)) : Entries α :=
  pairs.foldl (fun entries p => insert p.1 p.2 entries) []

/-- The names, in order. -/
def names (entries : Entries α) : List String := entries.map (·.1)

theorem get?_insert_self (name : String) (value : α) (entries : Entries α) :
    get? (insert name value entries) name = some value := by
  induction entries with
  | nil => simp [insert, get?]
  | cons m rest ih =>
    obtain ⟨k, v⟩ := m
    by_cases hk : k = name
    · simp [insert, get?, hk]
    · by_cases hlt : name < k
      · simp [insert, get?, hk, hlt]
      · simp [insert, get?, hk, hlt, ih]

theorem get?_insert_of_ne {name other : String} (h : other ≠ name) (value : α)
    (entries : Entries α) : get? (insert name value entries) other = get? entries other := by
  induction entries with
  | nil => simp [insert, get?, Ne.symm h]
  | cons m rest ih =>
    obtain ⟨k, v⟩ := m
    by_cases hk : k = name
    · subst hk
      simp [insert, get?, Ne.symm h]
    · by_cases hlt : name < k
      · simp [insert, get?, hk, hlt, Ne.symm h]
      · simp [insert, get?, hk, hlt, ih]

end Entries

end CallChain
