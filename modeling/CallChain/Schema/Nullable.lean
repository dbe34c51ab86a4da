import CallChain.Schema.Types

/-!
# Nullable schemas

`nullable: true` beside a `type` means that null is admitted too. The validator knows only types,
so the mark is spelled out: the type becomes a list with `null` in it, at every depth.

* `Schema.widenedType?`: the spelled-out type of one object.
* `Schema.spellNullable`: a schema with `nullable` spelled out at every depth.
-/

set_option autoImplicit false

namespace CallChain.Schema

/-- The type list of an object that is marked nullable, unless there is nothing to add: a name
becomes a list of the name and `null`, a list without `null` gets it at its end. -/
def widenedType? (members : Members) : Option Json :=
  if isNullable (.obj members) then
    match Entries.get? members "type" with
    | some (.str t) => some (.arr [.str t, .str "null"])
    | some (.arr ts) =>
      if ts.any (fun t => t.string? == some "null") then none
      else some (.arr (ts ++ [.str "null"]))
    | _ => none
  else none

/-- Spells the mark of one object out. -/
def widen (members : Members) : Members :=
  match widenedType? members with
  | some types => Entries.insert "type" types members
  | none => members

mutual

/-- **Spells `nullable: true` out** at every depth of a value. -/
def spellNullable : Json → Json
  | .arr items => .arr (spellNullableItems items)
  | .obj members => .obj (widen (spellNullableMembers members))
  | other => other

/-- Spells it out in items. -/
def spellNullableItems : List Json → List Json
  | [] => []
  | j :: rest => spellNullable j :: spellNullableItems rest

/-- Spells it out in members. -/
def spellNullableMembers : List (String × Json) → List (String × Json)
  | [] => []
  | (k, j) :: rest => (k, spellNullable j) :: spellNullableMembers rest

end

end CallChain.Schema
