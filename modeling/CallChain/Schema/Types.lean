import CallChain.Json

/-!
# The types a schema declares

Seen from outside, a schema admits values of some JSON types. A mapping from one place to another
is sound for types when every type of the source is a type of the target.

* `Schema.declaredTypes`: the types of a schema, or nothing when it declares none.
* `Schema.isCompatible`: whether values of one schema may go where another is declared.
* `Schema.describeTypes`: the types in words.
-/

set_option autoImplicit false

namespace CallChain.Schema

/-- Puts a name into a sorted list of names, once. -/
def insertType (t : String) : List String → List String
  | [] => [t]
  | u :: rest => if t = u then u :: rest else if t < u then t :: u :: rest else u :: insertType t rest

theorem mem_insertType {s t : String} (ts : List String) :
    s ∈ insertType t ts ↔ s = t ∨ s ∈ ts := by
  induction ts with
  | nil => simp [insertType]
  | cons u rest ih =>
    by_cases hu : t = u
    · subst hu
      simp [insertType]
    · by_cases hlt : t < u
      · simp [insertType, hu, hlt]
      · simp only [insertType, hu, hlt, if_false, List.mem_cons, ih]
        exact or_left_comm

/-- A list of names, sorted and each once. -/
def typeSet (ts : List String) : List String := ts.foldr insertType []

theorem mem_typeSet {s : String} (ts : List String) : s ∈ typeSet ts ↔ s ∈ ts := by
  induction ts with
  | nil => simp [typeSet]
  | cons t rest ih =>
    have hcons : typeSet (t :: rest) = insertType t (typeSet rest) := rfl
    rw [hcons, mem_insertType, ih, List.mem_cons]

/-- Whether a schema says `nullable: true`. -/
def isNullable (schema : Json) : Bool :=
  match schema.member? "nullable" with
  | some (.bool b) => b
  | _ => false

/-- The types that a schema names, or stands for by its `properties` or `items`; nothing if it
does neither. -/
def namedTypes? (schema : Json) : Option (List String) :=
  match schema.member? "type" with
  | some (.str t) => some [t]
  | some (.arr ts) => some (ts.filterMap Json.string?)
  | _ =>
    if (schema.member? "properties").isSome then some ["object"]
    else if (schema.member? "items").isSome then some ["array"]
    else none

/-- **The types that a schema declares**, sorted; `nullable` adds `null` to declared types. A
schema that declares none is untyped. -/
def declaredTypes (schema : Json) : Option (List String) :=
  match namedTypes? schema with
  | none => none
  | some named =>
    let types := typeSet (if isNullable schema then "null" :: named else named)
    if types.isEmpty then none else some types

/-- Whether a type is among the given ones; a whole number is a number. -/
def admits (types : List String) (t : String) : Bool :=
  types.contains t || (t == "integer" && types.contains "number")

/-- **Whether every declared type of the source is a type of the target.** An untyped target takes
everything, an untyped source only goes into an untyped target. -/
def isCompatible (source target : Json) : Bool :=
  match declaredTypes target with
  | none => true
  | some targetTypes =>
    match declaredTypes source with
    | none => false
    | some sourceTypes => sourceTypes.all (admits targetTypes)

/-- The declared types in words. -/
def describeTypes (schema : Json) : String :=
  match declaredTypes schema with
  | none => "any"
  | some [t] => t
  | some ts => "[" ++ ", ".intercalate ts ++ "]"

end CallChain.Schema
