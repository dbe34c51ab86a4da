import CallChain.Json.Text

/-!
# What is wrong with a value

A value that does not conform to a schema violates some of its keywords. A violation names the
place in the value and what was asked for there.

* `Pointer`: a place in a value, with its written form.
* `Complaint`: what a keyword objects to, with `Complaint.message`.
* `Violation`: a complaint at a place.
-/

set_option autoImplicit false

namespace CallChain.Schema

/-! ### Places -/

/-- **A place in a value**: member names and indices from the outside in. -/
abbrev Pointer := List String

/-- A step of a pointer as written: `~` and `/` have escapes. -/
def pointerToken (token : String) : List Char :=
  '/' :: token.toList.flatMap (fun c =>
    if c = '~' then ['~', '0'] else if c = '/' then ['~', '1'] else [c])

/-- The written form of a place; the whole value is `/`. -/
def pointerText (p : Pointer) : String :=
  let text := String.ofList (p.flatMap pointerToken)
  if text.isEmpty then "/" else text

/-! ### Complaints -/

/-- What the size of a value is counted in. -/
inductive Measure where
  | characters
  | items
  | properties
deriving DecidableEq, Repr

/-- So many of a measure, in words. -/
def Measure.text (m : Measure) (n : Nat) : String :=
  toString n ++ " " ++
    match m with
    | .characters => if n = 1 then "character" else "characters"
    | .items => if n = 1 then "item" else "items"
    | .properties => if n = 1 then "property" else "properties"

/-- How a number misses a limit. -/
inductive Relation where
  | less
  | lessOrEqual
  | greater
  | greaterOrEqual
deriving DecidableEq, Repr

/-- How a number misses a limit, in words. -/
def Relation.text : Relation → String
  | .less => "less than the minimum of"
  | .lessOrEqual => "less than or equal to the minimum of"
  | .greater => "greater than the maximum of"
  | .greaterOrEqual => "greater than or equal to the maximum of"

/-- **What a keyword objects to.** -/
inductive Complaint where
  | type (value : Json) (types : List String)
  | required (name : String)
  | limit (value : Json) (relation : Relation) (bound : Json)
  | notMultiple (value : Json) (divisor : Number)
  | tooSmall (measure : Measure) (value : Json) (least : Nat)
  | tooLarge (measure : Measure) (value : Json) (most : Nat)
  | pattern (value : Json) (pattern : String)
  | notUnique (value : Json)
  | const (expected : Json)
  | enum (value : Json) (options : Json)
  | noneOf (value : Json) (keyword : String)
  | severalOf (value : Json)
  | not (schema value : Json)
  | contains (value : Json)
  | extraProperties (names : List String)
  | extraItems (items : List Json)
  | falseSchema (value : Json)
  | format (value : Json) (format : String)
  | badReference (reference : String)

/-- A list in words: one was, several were. -/
def wereUnexpected (things : List String) : String :=
  ", ".intercalate things ++ (if things.length = 1 then " was" else " were") ++ " unexpected"

/-- The wording of a complaint. -/
def Complaint.message : Complaint → String
  | .type v [t] => v.compact ++ " is not of type " ++ Json.quoted t
  | .type v ts => v.compact ++ " is not of types " ++ ", ".intercalate (ts.map Json.quoted)
  | .required name => Json.quoted name ++ " is a required property"
  | .limit v relation bound => v.compact ++ " is " ++ relation.text ++ " " ++ bound.compact
  | .notMultiple v divisor =>
    v.compact ++ " is not a multiple of " ++ Layout.plain.write divisor.toDouble
  | .tooSmall .characters v n =>
    v.compact ++ " is shorter than " ++ Measure.characters.text n
  | .tooSmall measure v n => v.compact ++ " has less than " ++ measure.text n
  | .tooLarge .characters v n =>
    v.compact ++ " is longer than " ++ Measure.characters.text n
  | .tooLarge measure v n => v.compact ++ " has more than " ++ measure.text n
  | .pattern v p => v.compact ++ " does not match \"" ++ p ++ "\""
  | .notUnique v => v.compact ++ " has non-unique elements"
  | .const expected => expected.compact ++ " was expected"
  | .enum v options => v.compact ++ " is not one of " ++ options.compact
  | .noneOf v keyword =>
    v.compact ++ " is not valid under any of the schemas listed in the '" ++ keyword
      ++ "' keyword"
  | .severalOf v =>
    v.compact ++ " is valid under more than one of the schemas listed in the 'oneOf' keyword"
  | .not schema v => schema.compact ++ " is not allowed for " ++ v.compact
  | .contains v => "None of " ++ v.compact ++ " are valid under the given schema"
  | .extraProperties names =>
    "Additional properties are not allowed ("
      ++ wereUnexpected (names.map (fun n => "'" ++ n ++ "'")) ++ ")"
  | .extraItems items =>
    "Additional items are not allowed (" ++ wereUnexpected (items.map Json.compact) ++ ")"
  | .falseSchema v => "False schema does not allow " ++ v.compact
  | .format v name => v.compact ++ " is not a \"" ++ name ++ "\""
  | .badReference reference => "Invalid reference: json-schema:///" ++ reference

/-- **A complaint at a place of a value.** -/
structure Violation where
  place : Pointer
  complaint : Complaint

/-- The wording of a violation with its place. -/
def Violation.message (v : Violation) : String :=
  "`" ++ pointerText v.place ++ "`: " ++ v.complaint.message

end CallChain.Schema
