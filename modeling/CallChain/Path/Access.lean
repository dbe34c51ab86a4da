import CallChain.Path

/-!
# Following field paths

A path can be followed through a value, through the schema that describes values, and into a value
that is still being built.

* `FieldPath.extract`: the part of a value at a path.
* `FieldPath.resolve`: the schema of that part, with `ResolveError`.
* `FieldPath.inject`: writes a part, with `InjectError`. An absent member is created, an array
  grows by one element at its end, null becomes a container. What was created on the way stays
  when the rest fails.
-/

set_option autoImplicit false

namespace CallChain

/-! ### Reading -/

/-- The element or member that one step leads to. -/
def Segment.step : Segment → Json → Option Json
  | .field name, .obj members => Entries.get? members name
  | .index i, .arr items => items[i]?
  | _, _ => none

/-- **The part of a value at a path.** -/
def FieldPath.extract : FieldPath → Json → Option Json
  | [], value => some value
  | s :: rest, value => (s.step value).bind (FieldPath.extract rest)

/-! ### Resolving -/

/-- **Why a path leads nowhere in a schema**, and after how many steps. -/
inductive ResolveError where
  | undeclaredField (path : FieldPath) (steps : Nat) (field : String)
  | notAnArray (path : FieldPath) (steps : Nat)
deriving DecidableEq, Repr

namespace ResolveError

/-- The wording of an error. -/
def message : ResolveError → String
  | .undeclaredField path steps field =>
    "field `" ++ field ++ "` is not declared under `" ++ path.prefixDisplay steps ++ "`"
  | .notAnArray path steps => "`" ++ path.prefixDisplay steps ++ "` is not declared as an array"

/-- The name of the kind of an error. -/
def kind : ResolveError → String
  | .undeclaredField _ _ _ => "UndeclaredField"
  | .notAnArray _ _ => "NotAnArray"

end ResolveError

/-- The schema that one step leads to: a name goes through `properties`, an index through an
`items` that is an object. -/
def Segment.resolve : Segment → Json → Option Json
  | .field name, schema => (schema.member? "properties").bind (·.member? name)
  | .index _, schema => (schema.member? "items").filter Json.isObject

namespace FieldPath

/-- Follows the rest of `path`, of which `steps` steps are behind. -/
def resolveFrom (path : FieldPath) : Nat → FieldPath → Json → Except ResolveError Json
  | _, [], schema => .ok schema
  | steps, s :: rest, schema =>
    match s.resolve schema with
    | some inner => resolveFrom path (steps + 1) rest inner
    | none =>
      match s with
      | .field name => .error (.undeclaredField path steps name)
      | .index _ => .error (.notAnArray path steps)

/-- **The schema of the part at a path.** -/
def resolve (path : FieldPath) (schema : Json) : Except ResolveError Json :=
  resolveFrom path 0 path schema

end FieldPath

/-! ### Writing -/

/-- **Why a part cannot be written**, and after how many steps. -/
inductive InjectError where
  | notAContainer (path : FieldPath) (steps : Nat)
  | indexOutOfRange (path : FieldPath) (steps : Nat) (index length : Nat)
deriving DecidableEq, Repr

namespace InjectError

/-- The wording of an error. -/
def message : InjectError → String
  | .notAContainer path steps =>
    "cannot write `" ++ path.display ++ "`: `" ++ path.prefixDisplay steps
      ++ "` already holds a non-container value"
  | .indexOutOfRange path steps index length =>
    "cannot write `" ++ path.display ++ "`: index " ++ toString index
      ++ " is past the end of `" ++ path.prefixDisplay steps
      ++ "` (length " ++ toString length ++ ")"

/-- The name of the kind of an error. -/
def kind : InjectError → String
  | .notAContainer _ _ => "NotAContainer"
  | .indexOutOfRange _ _ _ _ => "IndexOutOfRange"

end InjectError

namespace Json

/-- The members of an object or of null, which counts as an empty object. -/
def asMembers? : Json → Option Members
  | .null => some []
  | .obj members => some members
  | _ => none

/-- The items of an array or of null, which counts as an empty array. -/
def asItems? : Json → Option (List Json)
  | .null => some []
  | .arr items => some items
  | _ => none

end Json

namespace FieldPath

/-- Writes along the rest of `path`, of which `steps` steps are behind: the value it leaves, and
why it stopped if it did. -/
def injectFrom (path : FieldPath) (new : Json) :
    Nat → FieldPath → Json → Json × Option InjectError
  | _, [], _ => (new, none)
  | steps, .field name :: rest, current =>
    match current.asMembers? with
    | none => (current, some (.notAContainer path steps))
    | some members =>
      let (inner, error) :=
        injectFrom path new (steps + 1) rest ((Entries.get? members name).getD .null)
      (.obj (Entries.insert name inner members), error)
  | steps, .index i :: rest, current =>
    match current.asItems? with
    | none => (current, some (.notAContainer path steps))
    | some items =>
      if i < items.length then
        let (inner, error) := injectFrom path new (steps + 1) rest ((items[i]?).getD .null)
        (.arr (items.set i inner), error)
      else if i = items.length then
        let (inner, error) := injectFrom path new (steps + 1) rest .null
        (.arr (items ++ [inner]), error)
      else (.arr items, some (.indexOutOfRange path steps i items.length))

/-- **Writes a part of a value**: the value afterwards, and why the part could not be written if
it could not. -/
def inject (path : FieldPath) (new root : Json) : Json × Option InjectError :=
  injectFrom path new 0 path root

end FieldPath

end CallChain
