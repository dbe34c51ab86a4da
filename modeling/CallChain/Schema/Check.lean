import CallChain.Schema.Violation
import CallChain.Schema.Format

/-!
# Checking values against schemas

A schema is read bottom up: every part of it is read as a schema of its own, and a keyword picks
the readings of its parts that it needs. A check takes a value and its place and lists violations.

**Order.** Keywords report in the order of their names, properties in the order of theirs, items by
index. `additionalProperties`, unless it is `true`, reports for `properties` and
`patternProperties` too. `$ref` hides everything beside it.

* `Check`: a value and its place to violations.
* `Part`: a part of a schema with its reading.
* `Part.of`: the reading of a schema, given what references mean.
* `Json.equivalent`: equality of values that does not tell `1` from `1.0`.
-/

set_option autoImplicit false

namespace CallChain

/-! ### Equality of values -/

namespace Json

mutual

/-- **Equality that does not tell sorts of numbers apart**: numbers agree when they round to the
same double. -/
def equivalent : Json → Json → Bool
  | .null, .null => true
  | .bool a, .bool b => a == b
  | .num a, .num b => a.agree b
  | .str a, .str b => a == b
  | .arr a, .arr b => equivalentItems a b
  | .obj a, .obj b => equivalentMembers a b
  | _, _ => false

/-- Equality of two lists of items. -/
def equivalentItems : List Json → List Json → Bool
  | [], [] => true
  | a :: as, b :: bs => equivalent a b && equivalentItems as bs
  | _, _ => false

/-- Equality of two lists of members. -/
def equivalentMembers : List (String × Json) → List (String × Json) → Bool
  | [], [] => true
  | (k, a) :: as, (l, b) :: bs => k == l && equivalent a b && equivalentMembers as bs
  | _, _ => false

end

mutual

/-- Every value is equivalent to itself. -/
@[simp] theorem equivalent_refl : ∀ j : Json, j.equivalent j = true
  | .null => rfl
  | .bool _ => by simp [equivalent]
  | .num _ => by simp [equivalent]
  | .str _ => by simp [equivalent]
  | .arr items => by simpa [equivalent] using equivalentItems_refl items
  | .obj members => by simpa [equivalent] using equivalentMembers_refl members

theorem equivalentItems_refl : ∀ items : List Json, equivalentItems items items = true
  | [] => rfl
  | j :: rest => by simp [equivalentItems, equivalent_refl j, equivalentItems_refl rest]

theorem equivalentMembers_refl :
    ∀ members : List (String × Json), equivalentMembers members members = true
  | [] => rfl
  | (_, j) :: rest => by
    simp [equivalentMembers, equivalent_refl j, equivalentMembers_refl rest]

end

end Json

namespace Schema

/-! ### Parts -/

/-- **A check** of a value at a place. -/
abbrev Check := Json → Pointer → List Violation

/-- **A part of a schema**: its value, its reading as a schema, and the parts in it. -/
inductive Part where
  | mk (json : Json) (check : Check) (items : List Part) (members : List (String × Part))

namespace Part

/-- The value of a part. -/
def json : Part → Json
  | .mk j _ _ _ => j

/-- The reading of a part as a schema. -/
def check : Part → Check
  | .mk _ c _ _ => c

/-- The parts in an array. -/
def items : Part → List Part
  | .mk _ _ is _ => is

/-- The parts in an object, by name. -/
def members : Part → List (String × Part)
  | .mk _ _ _ ms => ms

/-- Whether a value passes. -/
def passes (p : Part) (v : Json) : Bool := (p.check v []).isEmpty

end Part

/-- The part of a name. -/
def part? (parts : List (String × Part)) (name : String) : Option Part := parts.lookup name

/-- A check that never objects. -/
def accept : Check := fun _ _ => []

/-- Objects to a value unless a condition holds. -/
def ensure (holds : Bool) (place : Pointer) (complaint : Complaint) : List Violation :=
  if holds then [] else [⟨place, complaint⟩]

/-! ### Types -/

/-- **Whether a value is of a type.** A number without fraction is an integer as well. -/
def hasType (v : Json) (t : String) : Bool :=
  match v with
  | .null => t == "null"
  | .bool _ => t == "boolean"
  | .num n => t == "number" || (t == "integer" && n.isWhole)
  | .str _ => t == "string"
  | .arr _ => t == "array"
  | .obj _ => t == "object"

/-- The names of types, in the order in which messages list them. -/
def typeNames : List String :=
  ["array", "boolean", "integer", "null", "number", "object", "string"]

/-- `type`: one name, or a list of which one has to fit. -/
def typeCheck (p : Part) : Check := fun v place =>
  let types : List String :=
    match p.json with
    | .str t => [t]
    | .arr ts =>
      let named := ts.filterMap Json.string?
      typeNames.filter named.contains
    | _ => []
  ensure (types.any (hasType v)) place (.type v types)

/-! ### Values -/

/-- How near a number has to be to a constant: two to the power of minus fifty-two. -/
def constTolerance : Float := Float.ofBits 0x3cb0000000000000

/-- Whether a value meets a constant. Numbers meet it within a tolerance. -/
def meetsConst (expected v : Json) : Bool :=
  match expected, v with
  | .num a, .num b => a.agree b || (a.toFloat - b.toFloat).abs < constTolerance
  | _, _ => expected.equivalent v

/-- `const`. -/
def constCheck (p : Part) : Check := fun v place =>
  ensure (meetsConst p.json v) place (.const p.json)

/-- `enum`. -/
def enumCheck (p : Part) : Check := fun v place =>
  match p.json with
  | .arr options => ensure (options.any (·.equivalent v)) place (.enum v p.json)
  | _ => []

/-! ### Numbers -/

/-- `minimum`, `maximum` and their exclusive forms. -/
def limitCheck (relation : Relation) (p : Part) : Check := fun v place =>
  match v, p.json with
  | .num n, .num bound =>
    let missed : Bool :=
      match relation with
      | .less => n.compare bound == .lt
      | .lessOrEqual => n.compare bound != .gt
      | .greater => n.compare bound == .gt
      | .greaterOrEqual => n.compare bound != .lt
    ensure (!missed) place (.limit v relation p.json)
  | _, _ => []

/-- The part of a machine number after the point, with the sign of the number. -/
def fractionOf (x : Float) : Float := if x < 0 then x - x.ceil else x - x.floor

/-- Whether a number is a multiple. A divisor without fraction is taken exactly; for another one
the quotient is formed in machine arithmetic and its fraction must be below a tolerance. -/
def isMultiple (n divisor : Number) : Bool :=
  if divisor.isWhole then
    n.toDouble.isWhole && n.toDouble.truncate % divisor.toDouble.truncate == 0
  else fractionOf (n.toFloat / divisor.toFloat) < constTolerance

/-- `multipleOf`. -/
def multipleCheck (p : Part) : Check := fun v place =>
  match v, p.json with
  | .num n, .num divisor => ensure (isMultiple n divisor) place (.notMultiple v divisor)
  | _, _ => []

/-! ### Sizes -/

/-- The size of a value in a measure, if it can be measured in it. -/
def measured? (measure : Measure) (v : Json) : Option Nat :=
  match measure, v with
  | .characters, .str s => some s.length
  | .items, .arr items => some items.length
  | .properties, .obj members => some members.length
  | _, _ => none

/-- `minLength`, `minItems`, `minProperties`. -/
def leastCheck (measure : Measure) (p : Part) : Check := fun v place =>
  match measured? measure v, p.json with
  | some n, .num least =>
    ensure (least.truncate.toNat ≤ n) place (.tooSmall measure v least.truncate.toNat)
  | _, _ => []

/-- `maxLength`, `maxItems`, `maxProperties`. -/
def mostCheck (measure : Measure) (p : Part) : Check := fun v place =>
  match measured? measure v, p.json with
  | some n, .num most =>
    ensure (n ≤ most.truncate.toNat) place (.tooLarge measure v most.truncate.toNat)
  | _, _ => []

/-! ### Strings -/

/-- Whether a text matches a pattern; what is no pattern matches nothing. -/
def matchesPattern (pattern text : String) : Bool :=
  match Pattern.parse? pattern with
  | some p => p.occursIn text
  | none => false

/-- `pattern`. -/
def patternCheck (p : Part) : Check := fun v place =>
  match v, p.json with
  | .str s, .str pattern => ensure (matchesPattern pattern s) place (.pattern v pattern)
  | _, _ => []

/-- `format`. -/
def formatCheck (p : Part) : Check := fun v place =>
  match v, p.json with
  | .str s, .str format => ensure (Format.admits format s) place (.format v format)
  | _, _ => []

/-! ### Arrays -/

/-- Checks items with the number of the first. -/
def eachItem (check : Check) (place : Pointer) : Nat → List Json → List Violation
  | _, [] => []
  | i, v :: rest => check v (place ++ [toString i]) ++ eachItem check place (i + 1) rest

/-- Checks items by the checks of their places. -/
def itemwise (place : Pointer) : Nat → List Part → List Json → List Violation
  | i, p :: ps, v :: vs => p.check v (place ++ [toString i]) ++ itemwise place (i + 1) ps vs
  | _, _, _ => []

/-- `items`: one schema for all items, or one for each of the first ones. -/
def itemsCheck (p : Part) : Check := fun v place =>
  match v with
  | .arr vs =>
    match p.json with
    | .arr _ => itemwise place 0 p.items vs
    | _ => eachItem p.check place 0 vs
  | _ => []

/-- `additionalItems`: for the items that a list under `items` leaves over. -/
def extraItemsCheck (siblings : List (String × Part)) (p : Part) : Check := fun v place =>
  match v, part? siblings "items" with
  | .arr vs, some known =>
    match known.json with
    | .arr ps =>
      let extra := vs.drop ps.length
      match p.json with
      | .bool false => ensure extra.isEmpty place (.extraItems extra)
      | _ => eachItem p.check place ps.length extra
    | _ => []
  | _, _ => []

/-- `contains`. -/
def containsCheck (p : Part) : Check := fun v place =>
  match v with
  | .arr vs => ensure (vs.any p.passes) place (.contains v)
  | _ => []

/-- Whether no two items are equivalent. -/
def allDistinct : List Json → Bool
  | [] => true
  | v :: rest => !rest.any v.equivalent && allDistinct rest

/-- `uniqueItems`. -/
def uniqueCheck (p : Part) : Check := fun v place =>
  match v, p.json with
  | .arr vs, .bool true => ensure (allDistinct vs) place (.notUnique v)
  | _, _ => []

/-! ### Objects -/

/-- `required`, and a list under `dependencies`. -/
def requiredCheck (p : Part) : Check := fun v place =>
  match v, p.json with
  | .obj members, .arr names =>
    (names.filterMap Json.string?).flatMap (fun name =>
      ensure (Entries.has members name) place (.required name))
  | _, _ => []

/-- Whether `additionalProperties` reports for `properties` and `patternProperties` too. -/
def extraTakesOver (siblings : List (String × Part)) : Bool :=
  match part? siblings "additionalProperties" with
  | some p =>
    match p.json with
    | .bool b => !b
    | _ => true
  | none => false

/-- `properties`. -/
def propertiesCheck (siblings : List (String × Part)) (p : Part) : Check := fun v place =>
  match v with
  | .obj members =>
    if extraTakesOver siblings then []
    else p.members.flatMap (fun (name, inner) =>
      match Entries.get? members name with
      | some value => inner.check value (place ++ [name])
      | none => [])
  | _ => []

/-- `patternProperties`. -/
def patternPropertiesCheck (siblings : List (String × Part)) (p : Part) : Check := fun v place =>
  match v with
  | .obj members =>
    if extraTakesOver siblings then []
    else p.members.flatMap (fun (pattern, inner) =>
      members.flatMap (fun (name, value) =>
        if matchesPattern pattern name then inner.check value (place ++ [name]) else []))
  | _ => []

/-- The violations of one member under `properties` and `patternProperties`, and whether one of
them knows it. -/
def knownMember (named patterns : List (String × Part)) (place : Pointer) (name : String)
    (value : Json) : List Violation × Bool :=
  let byName := part? named name
  let byPattern := patterns.filter (fun (pattern, _) => matchesPattern pattern name)
  let inner := place ++ [name]
  ((match byName with
    | some p => p.check value inner
    | none => [])
    ++ byPattern.flatMap (fun (_, p) => p.check value inner),
    byName.isSome || !byPattern.isEmpty)

/-- `additionalProperties`: all members, by what knows them, else by this schema. `false` reports
the unknown ones together, or, with nothing to know members by, only the first one. -/
def extraPropertiesCheck (siblings : List (String × Part)) (p : Part) : Check := fun v place =>
  match v with
  | .obj members =>
    let named := part? siblings "properties"
    let patterns := part? siblings "patternProperties"
    let known (name : String) (value : Json) : List Violation × Bool :=
      knownMember ((named.map Part.members).getD []) ((patterns.map Part.members).getD [])
        place name value
    match p.json with
    | .bool true => []
    | .bool false =>
      if named.isNone && patterns.isNone then
        match members with
        | [] => []
        | (_, value) :: _ => [⟨place, .falseSchema value⟩]
      else
        let unknown := members.filter (fun (name, value) => !(known name value).2)
        members.flatMap (fun (name, value) => (known name value).1)
          ++ ensure unknown.isEmpty place (.extraProperties (unknown.map (·.1)))
    | _ =>
      members.flatMap (fun (name, value) =>
        let (violations, isKnown) := known name value
        if isKnown then violations else p.check value (place ++ [name]))
  | _ => []

/-- `propertyNames`. -/
def namesCheck (p : Part) : Check := fun v place =>
  match v with
  | .obj members =>
    match p.json with
    | .bool false => ensure members.isEmpty place (.falseSchema v)
    | _ => members.flatMap (fun (name, _) =>
        (p.check (.str name) []).map (fun violation => { violation with place := place }))
  | _ => []

/-- `dependencies`: what else an object needs when it has a member. -/
def dependenciesCheck (p : Part) : Check := fun v place =>
  match v with
  | .obj members =>
    p.members.flatMap (fun (name, inner) =>
      if Entries.has members name then
        match inner.json with
        | .arr _ => requiredCheck inner v place
        | _ => inner.check v place
      else [])
  | _ => []

/-! ### Combinations -/

/-- `allOf`. -/
def allCheck (p : Part) : Check := fun v place => p.items.flatMap (fun q => q.check v place)

/-- `anyOf`. -/
def anyCheck (p : Part) : Check := fun v place =>
  ensure (p.items.any (·.passes v)) place (.noneOf v "anyOf")

/-- `oneOf`. -/
def oneCheck (p : Part) : Check := fun v place =>
  match p.items.filter (·.passes v) with
  | [] => [⟨place, .noneOf v "oneOf"⟩]
  | [_] => []
  | _ => [⟨place, .severalOf v⟩]

/-- `not`. -/
def notCheck (p : Part) : Check := fun v place => ensure (!p.passes v) place (.not p.json v)

/-- `if`, which chooses between `then` and `else`. -/
def ifCheck (siblings : List (String × Part)) (p : Part) : Check := fun v place =>
  match part? siblings (if p.passes v then "then" else "else") with
  | some q => q.check v place
  | none => []

/-! ### Keywords -/

/-- **The check of a keyword** with its part, beside the other keywords of its schema. A name that
is no keyword asks for nothing. -/
def keywordCheck (siblings : List (String × Part)) (keyword : String) (p : Part) : Check :=
  match keyword with
  | "additionalItems" => extraItemsCheck siblings p
  | "additionalProperties" => extraPropertiesCheck siblings p
  | "allOf" => allCheck p
  | "anyOf" => anyCheck p
  | "const" => constCheck p
  | "contains" => containsCheck p
  | "dependencies" => dependenciesCheck p
  | "enum" => enumCheck p
  | "exclusiveMaximum" => limitCheck .greaterOrEqual p
  | "exclusiveMinimum" => limitCheck .lessOrEqual p
  | "format" => formatCheck p
  | "if" => ifCheck siblings p
  | "items" => itemsCheck p
  | "maxItems" => mostCheck .items p
  | "maxLength" => mostCheck .characters p
  | "maxProperties" => mostCheck .properties p
  | "maximum" => limitCheck .greater p
  | "minItems" => leastCheck .items p
  | "minLength" => leastCheck .characters p
  | "minProperties" => leastCheck .properties p
  | "minimum" => limitCheck .less p
  | "multipleOf" => multipleCheck p
  | "not" => notCheck p
  | "oneOf" => oneCheck p
  | "pattern" => patternCheck p
  | "patternProperties" => patternPropertiesCheck siblings p
  | "properties" => propertiesCheck siblings p
  | "propertyNames" => namesCheck p
  | "required" => requiredCheck p
  | "type" => typeCheck p
  | "uniqueItems" => uniqueCheck p
  | _ => accept

/-- The check of an object that is read as a schema, from its parts. -/
def objectCheck (refs : String → Check) (parts : List (String × Part)) : Check :=
  match (part? parts "$ref").map Part.json with
  | some (.str reference) => refs reference
  | _ => fun v place => parts.flatMap (fun (keyword, p) => keywordCheck parts keyword p v place)

/-! ### Reading a schema -/

mutual

/-- **The reading of a schema**, when references mean `refs`. What is neither an object nor a
truth value asks for nothing. -/
def Part.of (refs : String → Check) : Json → Part
  | .bool true => .mk (.bool true) accept [] []
  | .bool false => .mk (.bool false) (fun v place => [⟨place, .falseSchema v⟩]) [] []
  | .arr items => .mk (.arr items) accept (Part.ofItems refs items) []
  | .obj members =>
    let parts := Part.ofMembers refs members
    .mk (.obj members) (objectCheck refs parts) [] parts
  | other => .mk other accept [] []

/-- The readings of items. -/
def Part.ofItems (refs : String → Check) : List Json → List Part
  | [] => []
  | j :: rest => Part.of refs j :: Part.ofItems refs rest

/-- The readings of members. -/
def Part.ofMembers (refs : String → Check) : List (String × Json) → List (String × Part)
  | [] => []
  | (k, j) :: rest => (k, Part.of refs j) :: Part.ofMembers refs rest

end

end Schema

end CallChain
