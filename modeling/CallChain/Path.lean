import CallChain.Json

/-!
# Field paths

A field path names a part of a JSON value: member names and array indices, from the outside in.

* `Segment`, `FieldPath`: one step and a sequence of steps.
* `FieldPath.display`: the written form, `items[0].owner.id`.
* `FieldPath.headField?`, `FieldPath.tail`: the first name and what follows it.
-/

set_option autoImplicit false

namespace CallChain

/-- **One step into a value**: to a member of an object or to an element of an array. -/
inductive Segment where
  | field (name : String)
  | index (position : Nat)
deriving DecidableEq, Repr, Inhabited

/-- **A field path**: the steps from the outside in. -/
abbrev FieldPath := List Segment

namespace FieldPath

/-- The written form of a step that does not come first. -/
def displaySegment : Segment → List Char
  | .field name => '.' :: name.toList
  | .index i => '[' :: Nat.toDigits 10 i ++ [']']

/-- The characters of the written form: a name that comes first has no dot. -/
def displayChars : FieldPath → List Char
  | [] => []
  | .field name :: rest => name.toList ++ rest.flatMap displaySegment
  | .index i :: rest => displaySegment (.index i) ++ rest.flatMap displaySegment

/-- **The written form of a path**; the empty path is written as nothing. -/
def display (p : FieldPath) : String := String.ofList (displayChars p)

/-- How a message names the place reached after some steps; no step at all is `$`. -/
def prefixDisplay (p : FieldPath) (steps : Nat) : String :=
  if steps = 0 then "$" else display (p.take steps)

/-- The name that a path starts with, if it starts with a name. -/
def headField? : FieldPath → Option String
  | .field name :: _ => some name
  | _ => none

/-- A path without its first step. -/
def tail (p : FieldPath) : FieldPath := p.drop 1

end FieldPath

end CallChain
