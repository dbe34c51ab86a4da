import CallChain.Json.Reader

/-!
# Decoding typed values

A `Decoder` turns a `Source` into a typed value or says what is wrong with it. Records are decoded
field by field: a `Fields` value lists the fields in declared order and knows how to take them from
an object, by name, and from a list, by place.

**Which of two faults wins.** Members are visited in the order in which the source lists them, and
the first bad one decides; only then are missing fields looked for, in declared order.

* `Dialect`: the three kinds of source and where they differ.
* `DecodeCause`, `DecodeError`: what is wrong and where, with `DecodeCause.message`.
* `Decoder.string`, `Decoder.word`, `Decoder.list`, …: decoders of plain things.
* `Fields.required`, `Fields.optional`, `Decoder.record`: decoders of records.
-/

set_option autoImplicit false

namespace CallChain

/-- **The kind of a source.** A value lists members in the order of their names, a text in the
order of writing; a YAML text also leaves the sort of plain scalars open. -/
inductive Dialect where
  | value
  | text
  | yaml
deriving DecidableEq, Repr

/-! ### Errors -/

/-- What was found in place of something expected. -/
inductive Found where
  | null
  | bool (value : Bool)
  | integer (value : Int)
  | floating (value : Double)
  | string (value : String)
  | sequence
  | map
  | bareVariant
deriving DecidableEq

/-- How a message names what was found. -/
def Found.text : Found → String
  | .null => "null"
  | .bool true => "boolean `true`"
  | .bool false => "boolean `false`"
  | .integer i => "integer `" ++ toString i ++ "`"
  | .floating d => "floating point `" ++ Layout.json.write d ++ "`"
  | .string s => "string " ++ Json.quoted s
  | .sequence => "sequence"
  | .map => "map"
  | .bareVariant => "unit variant"

/-- **What can be wrong with a source.** -/
inductive DecodeCause where
  /-- The text itself is at fault. -/
  | unreadable (cause : ReadCause)
  | missingField (name : String)
  | duplicateField (name : String)
  | invalidType (found : Found) (expected : String)
  | invalidValue (found : Found) (expected : String)
  | invalidLength (length : Nat) (expected : String)
  | unknownVariant (name : String) (known : List String)
  /-- A text of the right sort that its type refuses. -/
  | refused (message : String)
deriving DecidableEq

/-- The wording of a cause. -/
def DecodeCause.message : DecodeCause → String
  | .unreadable cause => cause.message
  | .missingField name => "missing field `" ++ name ++ "`"
  | .duplicateField name => "duplicate field `" ++ name ++ "`"
  | .invalidType found expected => "invalid type: " ++ found.text ++ ", expected " ++ expected
  | .invalidValue found expected => "invalid value: " ++ found.text ++ ", expected " ++ expected
  | .invalidLength length expected =>
    "invalid length " ++ toString length ++ ", expected " ++ expected
  | .unknownVariant name known =>
    "unknown variant `" ++ name ++ "`, expected one of "
      ++ ", ".intercalate (known.map (fun k => "`" ++ k ++ "`"))
  | .refused message => message

/-- **An objection to a source**, with its place once that is known. -/
structure DecodeError where
  cause : DecodeCause
  place? : Option Mark := none
deriving DecidableEq

namespace DecodeError

/-- The wording of an objection to a value. -/
def message (e : DecodeError) : String := e.cause.message

/-- The wording of an objection to a text, with its place. -/
def placedMessage (e : DecodeError) : String := e.cause.message ++ (e.place?.getD {}).text

/-- Gives an objection a place unless it has one. -/
def settle (place : Mark) (e : DecodeError) : DecodeError :=
  match e.place? with
  | some _ => e
  | none => { e with place? := some place }

/-- The objection that reading stopped. -/
def ofFault (fault : ReadFault) : DecodeError := ⟨.unreadable fault.cause, some fault.place⟩

end DecodeError

/-! ### Decoders -/

/-- **A decoder** of values of a type. -/
abbrev Decoder (α : Type) := Dialect → Source → Except DecodeError α

namespace Source

/-- What a scalar is called in a message. -/
def foundScalar : Scalar → Found
  | .null => .null
  | .bool b => .bool b
  | .num (.int i) => .integer i
  | .num (.double d) => .floating d
  | .str s => .string s

/-- The objection that a source is not of the expected sort. -/
def unexpected (s : Source) (expected : String) : DecodeError :=
  match s with
  | .scalar v span => ⟨.invalidType (foundScalar v) expected, some span.stop⟩
  | .plain text => ⟨.invalidType (.string text) expected, none⟩
  | .tagged _ inner => inner.unexpected expected
  | .list start _ _ => ⟨.invalidType .sequence expected, some start⟩
  | .record start _ _ => ⟨.invalidType .map expected, some start⟩
  | .broken _ fault => .ofFault fault

end Source

namespace Decoder

/-- Changes the value of a decoder. -/
def map {α β : Type} (f : α → β) (d : Decoder α) : Decoder β :=
  fun dialect s => (d dialect s).map f

/-- A text that a type may refuse; the objection has no place of its own. -/
def refine {α β : Type} (d : Decoder α) (check : α → Except String β) : Decoder β :=
  fun dialect s => do
    let a ← d dialect s
    match check a with
    | .ok b => .ok b
    | .error message => .error ⟨.refused message, none⟩

/-- A string; a plain scalar is taken as its text. -/
def string : Decoder String := fun _ s =>
  match s.bare with
  | .scalar (.str text) _ => .ok text
  | .plain text => .ok text
  | other => .error (other.unexpected "a string")

/-! ### Plain scalars -/

/-- Whether a plain scalar is null. -/
def plainNull (text : String) : Bool := text ∈ ["", "null", "Null", "NULL", "~"]

/-- A plain scalar as a truth value. -/
def plainBool? (text : String) : Option Bool :=
  if text ∈ ["true", "True", "TRUE"] then some true
  else if text ∈ ["false", "False", "FALSE"] then some false
  else none

/-- Whether digits start with a zero that does not stand alone. -/
def leadingZero : List Char → Bool
  | '0' :: d :: rest => (d :: rest).all Char.isDigit
  | _ => false

/-- The magnitude of a whole number without sign, in base ten, sixteen, eight or two. -/
def plainMagnitude? : List Char → Option Nat
  | '0' :: 'x' :: rest => digitsIn? 16 rest
  | '0' :: 'o' :: rest => digitsIn? 8 rest
  | '0' :: 'b' :: rest => digitsIn? 2 rest
  | cs => if leadingZero cs then none else digitsIn? 10 cs

/-- A plain scalar as a whole number; leading zeros make it a string. -/
def plainInt? (text : String) : Option Int :=
  match text.toList with
  | '-' :: rest => (plainMagnitude? rest).map (fun n => -(n : Int))
  | '+' :: rest => (plainMagnitude? rest).map Int.ofNat
  | cs => (plainMagnitude? cs).map Int.ofNat

/-- A plain scalar as a finite machine number. -/
def plainFloat? (text : String) : Option Float :=
  let parse (cs : List Char) : Option Float := do
    let (n, e) ← decimalParts? cs
    let x := nearestFloat n e
    if x.isFinite then some x else none
  match text.toList with
  | '-' :: rest => (parse rest).map (fun x => -x)
  | '+' :: rest => parse rest
  | cs => parse cs

/-- Spellings of infinities and NaN, which no JSON value can hold. -/
def plainUnbounded (text : String) : Bool :=
  text ∈ [".inf", ".Inf", ".INF", "+.inf", "+.Inf", "+.INF", "-.inf", "-.Inf", "-.INF",
    ".nan", ".NaN", ".NAN"]

/-- **The free value of a plain scalar**: null, truth value, whole number, double or string, in
this order. A whole number beyond sixty-four bits is refused, unless it is beyond a hundred and
twenty-eight bits and read as a double; what is not finite is null. -/
def plainValue (text : String) : Except DecodeError Json :=
  if plainNull text then .ok .null
  else match plainBool? text with
  | some b => .ok (.bool b)
  | none =>
    match plainInt? text with
    | some i =>
      if -(Nat.pow 2 63 : Int) ≤ i && i < Nat.pow 2 64 then .ok (.num (.int i))
      else if -(Nat.pow 2 127 : Int) ≤ i && i < Nat.pow 2 128 then
        .error ⟨.invalidType (.integer i) "any valid JSON value", none⟩
      else .ok (.num (.double ((Double.ofFloat? (nearestFloat i.natAbs 0)).getD .zero)))
    | none =>
      if plainUnbounded text then .ok .null
      else if leadingZero (text.toList.dropWhile (fun c => c = '-' || c = '+')) then
        .ok (.str text)
      else match plainFloat? text with
      | some x =>
        match Double.ofFloat? x with
        | some d => .ok (.num (.double d))
        | none => .ok (.str text)
      | none => .ok (.str text)

/-- The free value of a scalar whose tag settles how its text is read. -/
def taggedValue (tag : NodeTag) (text : String) : Except DecodeError Json :=
  let refused (expected : String) : Except DecodeError Json :=
    .error ⟨.invalidValue (.string text) expected, none⟩
  match tag with
  | .null => if plainNull text && text ≠ "" then .ok .null else refused "null"
  | .bool =>
    match plainBool? text with
    | some b => .ok (.bool b)
    | none => refused "a boolean"
  | .int =>
    match plainInt? text with
    | some i =>
      if -(Nat.pow 2 63 : Int) ≤ i && i < Nat.pow 2 64 then .ok (.num (.int i))
      else refused "an integer"
    | none => refused "an integer"
  | .float =>
    if plainUnbounded text then .ok .null
    else match (plainFloat? text).bind Double.ofFloat? with
    | some d => .ok (.num (.double d))
    | none => refused "a float"
  | .other => .ok (.str text)
  | .own _ => .error ⟨.unreadable (.yaml .unusableTag), none⟩

/-! ### Free values -/

mutual

/-- **A free value.** Of several members with one name the last counts. -/
def anyFrom : Source → Except DecodeError Json
  | .scalar v _ => .ok (Source.scalarJson v)
  | .plain text => plainValue text
  | .tagged tag (.plain text) => taggedValue tag text
  | .tagged tag (.scalar (.str text) _) => taggedValue tag text
  | .tagged (.own _) _ => .error ⟨.unreadable (.yaml .unusableTag), none⟩
  | .tagged _ inner => anyFrom inner
  | .list _ items close => do
    let values ← anyItems items
    match close with
    | .error fault => .error (.ofFault fault)
    | .ok _ => return .arr values
  | .record _ members close => do
    let pairs ← anyPairs members
    match close with
    | .error fault => .error (.ofFault fault)
    | .ok _ => return Json.ofPairs pairs
  | .broken _ fault => .error (.ofFault fault)

/-- The free values of items. -/
def anyItems : List (Source × Mark) → Except DecodeError (List Json)
  | [] => .ok []
  | (s, _) :: rest => do
    let j ← anyFrom s
    let js ← anyItems rest
    return j :: js

/-- The names and free values of members. -/
def anyPairs : List (MemberName × Source × Mark) → Except DecodeError (List (String × Json))
  | [] => .ok []
  | (k, s, _) :: rest => do
    let j ← anyFrom s
    let js ← anyPairs rest
    return (k.text, j) :: js

end

/-- A free value. -/
def any : Decoder Json := fun _ s => anyFrom s

/-- A part that nobody asks for: only its text has to be right, and that of YAML has been seen to
be right as a whole. -/
def ignored (dialect : Dialect) (s : Source) : Except DecodeError Unit :=
  match dialect, s.toJson with
  | .yaml, _ => .ok ()
  | _, .ok _ => .ok ()
  | _, .error fault => .error (.ofFault fault)

/-! ### Truth values and words -/

/-- A truth value. -/
def bool : Decoder Bool := fun _ s =>
  match s.bare with
  | .scalar (.bool b) _ => .ok b
  | .plain text =>
    match plainBool? text with
    | some b => .ok b
    | none => .error (s.unexpected "a boolean")
  | other => .error (other.unexpected "a boolean")

/-- A whole number below a bound; `name` is what messages call its type. -/
def word (name : String) (bound : Nat) : Decoder Nat := fun _ s =>
  match s.bare with
  | .scalar (.num (.int (.ofNat n))) span =>
    if n < bound then .ok n else .error ⟨.invalidValue (.integer n) name, some span.stop⟩
  | .scalar (.num (.int i)) span => .error ⟨.invalidValue (.integer i) name, some span.stop⟩
  | .plain text =>
    match plainInt? text with
    | some (.ofNat n) =>
      if text.front = '-' then .error (s.unexpected name)
      else if n < bound then .ok n
      else .error ⟨.invalidValue (.integer n) name, none⟩
    | _ => .error (s.unexpected name)
  | other => .error (other.unexpected name)

/-- A number of sixteen bits. -/
def word16 : Decoder UInt16 := (word "u16" (Nat.pow 2 16)).map (·.toUInt16)

/-- A number of sixty-four bits. -/
def word64 : Decoder UInt64 := (word "u64" (Nat.pow 2 64)).map (·.toUInt64)

/-- A count, which has sixty-four bits. -/
def count : Decoder UInt64 := (word "usize" (Nat.pow 2 64)).map (·.toUInt64)

/-! ### Options, lists and maps -/

/-- A value or null. -/
def option {α : Type} (d : Decoder α) : Decoder (Option α) := fun dialect s =>
  match s with
  | .scalar .null _ => .ok none
  | .plain text => if plainNull text then .ok none else (d dialect s).map some
  | .tagged .null (.plain text) => (taggedValue .null text).map (fun _ => none)
  | other => (d dialect other).map some

/-- The items of a list, each settled where it ends. -/
def items {α : Type} (d : Decoder α) (dialect : Dialect) :
    List (Source × Mark) → Except DecodeError (List α)
  | [] => .ok []
  | (s, settled) :: rest =>
    match d dialect s with
    | .error e => .error (e.settle settled)
    | .ok a => (items d dialect rest).map (a :: ·)

/-- A list. -/
def list {α : Type} (d : Decoder α) : Decoder (List α) := fun dialect s =>
  match s.bare with
  | .list _ entries close => do
    let values ← items d dialect entries
    match close with
    | .error fault => .error (.ofFault fault)
    | .ok _ => return values
  | .plain "" => .ok []
  | other => .error (other.unexpected "a sequence")

/-- The values of members, each settled where it ends. -/
def members {α : Type} (d : Decoder α) (dialect : Dialect) :
    List (MemberName × Source × Mark) → Except DecodeError (List (String × α))
  | [] => .ok []
  | (k, s, settled) :: rest =>
    match d dialect s with
    | .error e => .error (e.settle settled)
    | .ok a => (members d dialect rest).map ((k.text, a) :: ·)

/-- A map from names, as the pairs in the order of the source. -/
def pairs {α : Type} (d : Decoder α) : Decoder (List (String × α)) := fun dialect s =>
  match s.bare with
  | .record _ entries close => do
    let values ← members d dialect entries
    match close with
    | .error fault => .error (.ofFault fault)
    | .ok _ => return values
  | .plain "" => .ok []
  | other => .error (other.unexpected "a map")

/-- A map from names to free values. -/
def freeMembers : Decoder Members := (pairs any).map Entries.ofPairs

/-- A list of exactly two values. -/
def pair {α β : Type} (first : Decoder α) (second : Decoder β) : Decoder (α × β) :=
  fun dialect s =>
    match s with
    | .list _ entries close =>
      let short (n : Nat) : Except DecodeError (α × β) :=
        match close with
        | .error fault => .error (.ofFault fault)
        | .ok place => .error ⟨.invalidLength n "a tuple of size 2", some place⟩
      match entries with
      | [] => short 0
      | (a, settled) :: rest =>
        match first dialect a with
        | .error e => .error (e.settle settled)
        | .ok x =>
          match rest with
          | [] => short 1
          | (b, settled) :: more =>
            match second dialect b with
            | .error e => .error (e.settle settled)
            | .ok y =>
              if more.isEmpty then
                match close with
                | .error fault => .error (.ofFault fault)
                | .ok _ => .ok (x, y)
              else .error ⟨.invalidLength entries.length "fewer elements in array", none⟩
    | other => .error (other.unexpected "a tuple of size 2")

/-! ### Variants -/

/-- Looks a spelling up. -/
def spelled {α : Type} (known : List (String × α)) (name : String) (place : Mark) :
    Except DecodeError α :=
  match known.lookup name with
  | some a => .ok a
  | none => .error ⟨.unknownVariant name (known.map (·.1)), some place⟩

/-- **One of several names**, spelled as a string or as the only member of a map, with null. -/
def variant {α : Type} (known : List (String × α)) : Decoder α := fun dialect s =>
  match dialect, s with
  | _, .scalar (.str name) span => spelled known name span.stop
  | _, .plain name => spelled known name {}
  | _, .tagged (.own name) (.plain text) => do
    let a ← spelled known name {}
    if plainNull text then .ok a else .error ⟨.invalidType (.string text) "unit", none⟩
  | _, .tagged (.own _) inner => .error (inner.unexpected "unit")
  | _, .tagged _ (.plain name) => spelled known name {}
  | _, .tagged _ (.scalar (.str name) _) => spelled known name {}
  | .yaml, other => .error (other.unexpected "a variant name")
  | _, .record _ [] (.ok _) =>
    .error ⟨.invalidValue .map "map with a single key", none⟩
  | _, .record _ [] (.error fault) => .error (.ofFault fault)
  | dialect, .record _ ((k, v, settled) :: more) _ =>
    if dialect = .value && !more.isEmpty then
      .error ⟨.invalidValue .map "map with a single key", none⟩
    else do
      let a ← spelled known k.text k.settled
      match v with
      | .scalar .null _ =>
        if more.isEmpty then .ok a
        else .error ⟨.unreadable .expectedValue, some settled⟩
      | other => .error (other.unexpected "unit")
  | _, .broken _ fault => .error (.ofFault fault)
  | .text, other => .error ⟨.unreadable .expectedValue, some other.start.next⟩
  | _, other => .error (other.unexpected "string or map")

end Decoder

/-! ### Fields -/

/-- What visiting the members of a record brought: objections with the number of the member they
concern, the missing fields in declared order, and the value if all is well. -/
structure Visit (α : Type) where
  faults : List (Nat × DecodeError) := []
  missing : List String := []
  value? : Option α := none

/-- **The fields of a record**, in declared order. -/
structure Fields (α : Type) where
  /-- The spellings of each field. -/
  spellings : List (List String)
  /-- Takes the fields from the members of an object. -/
  fromMembers : Dialect → List (MemberName × Source × Mark) → Visit α
  /-- Takes the fields from the items of a list, of which so many are taken already. -/
  fromItems : Dialect → Nat → List (Source × Mark) →
    Except (Nat ⊕ DecodeError) (α × Nat × List (Source × Mark))

namespace Fields

/-- No field. -/
def pure {α : Type} (a : α) : Fields α where
  spellings := []
  fromMembers _ _ := { value? := some a }
  fromItems _ taken items := .ok (a, taken, items)

/-- The fields of a function's result, then those of its argument. -/
def ap {α β : Type} (f : Fields (α → β)) (x : Fields α) : Fields β where
  spellings := f.spellings ++ x.spellings
  fromMembers dialect members :=
    let f := f.fromMembers dialect members
    let x := x.fromMembers dialect members
    { faults := f.faults ++ x.faults
      missing := f.missing ++ x.missing
      value? := match f.value?, x.value? with
        | some g, some a => some (g a)
        | _, _ => none }
  fromItems dialect taken items :=
    match f.fromItems dialect taken items with
    | .error e => .error e
    | .ok (g, taken, items) =>
      match x.fromItems dialect taken items with
      | .error e => .error e
      | .ok (a, taken, items) => .ok (g a, taken, items)

/-- The members with one of the given spellings, with their numbers. -/
def occurrences (names : List String) (members : List (MemberName × Source × Mark)) :
    List (Nat × MemberName × Source × Mark) :=
  members.zipIdx.filterMap (fun (m, i) => if m.1.text ∈ names then some (i, m) else none)

/-- A field with its spellings, the first of which is its name. `default?` stands for it when it
is missing; without a default it must be there. -/
def field {α : Type} (name : String) (aliases : List String) (d : Decoder α)
    (default? : Option α) : Fields α where
  spellings := [name :: aliases]
  fromMembers dialect members :=
    match occurrences (name :: aliases) members with
    | [] =>
      match default? with
      | some a => { value? := some a }
      | none => { missing := [name] }
    | (i, _, s, settled) :: again =>
      let repeated : List (Nat × DecodeError) :=
        match again with
        | [] => []
        | (j, k, _, _) :: _ => [(j, ⟨.duplicateField name, some k.settled⟩)]
      match d dialect s with
      | .ok a => { faults := repeated, value? := some a }
      | .error e => { faults := (i, e.settle settled) :: repeated }
  fromItems dialect taken items :=
    match items with
    | [] =>
      match default? with
      | some a => .ok (a, taken, [])
      | none => .error (.inl taken)
    | (s, settled) :: rest =>
      match d dialect s with
      | .ok a => .ok (a, taken + 1, rest)
      | .error e => .error (.inr (e.settle settled))

/-- A field that must be there. -/
def required {α : Type} (name : String) (d : Decoder α) : Fields α := field name [] d none

/-- A field with a default. -/
def optional {α : Type} (name : String) (d : Decoder α) (fallback : α) : Fields α :=
  field name [] d (some fallback)

instance : Functor Fields where
  map f x := ap (pure f) x

instance : Seq Fields where
  seq f x := ap f (x ())

/-- The objection with the least number. -/
def earliest : List (Nat × DecodeError) → Option (Nat × DecodeError)
  | [] => none
  | f :: rest =>
    match earliest rest with
    | some g => if g.1 < f.1 then some g else some f
    | none => some f

end Fields

namespace Decoder

/-- The objections to members that belong to no field. -/
def strays (known : List String) (dialect : Dialect)
    (members : List (MemberName × Source × Mark)) : List (Nat × DecodeError) :=
  members.zipIdx.filterMap (fun (m, i) =>
    if m.1.text ∈ known then none
    else match ignored dialect m.2.1 with
      | .ok _ => none
      | .error e => some (i, e))

/-- The fields of a record from the members of an object. -/
def fromObject {α : Type} (fields : Fields α) (dialect : Dialect)
    (members : List (MemberName × Source × Mark)) (close : Except ReadFault Mark) :
    Except DecodeError α :=
  let visit := fields.fromMembers dialect members
  match Fields.earliest (visit.faults ++ strays fields.spellings.flatten dialect members) with
  | some (_, e) => .error e
  | none =>
    match close with
    | .error fault => .error (.ofFault fault)
    | .ok place =>
      match visit.missing, visit.value? with
      | [], some a => .ok a
      | name :: _, _ => .error ⟨.missingField name, some place⟩
      | [], none => .error ⟨.refused "", some place⟩

/-- How many elements a record has, in words. -/
def elements (n : Nat) : String := toString n ++ (if n = 1 then " element" else " elements")

/-- The fields of a record from the items of a list. -/
def fromArray {α : Type} (name : String) (fields : Fields α) (dialect : Dialect)
    (entries : List (Source × Mark)) (close : Except ReadFault Mark) : Except DecodeError α :=
  match fields.fromItems dialect 0 entries with
  | .error (.inr e) => .error e
  | .error (.inl n) =>
    match close with
    | .error fault => .error (.ofFault fault)
    | .ok place =>
      .error ⟨.invalidLength n (name ++ " with " ++ elements fields.spellings.length), some place⟩
  | .ok (a, _, []) =>
    match close with
    | .error fault => .error (.ofFault fault)
    | .ok _ => .ok a
  | .ok (_, _, (extra, _) :: _) =>
    if dialect = .text then .error ⟨.unreadable .trailingCharacters, some extra.start.next⟩
    else .error ⟨.invalidLength entries.length "fewer elements in array", none⟩

/-- **A record**: an object by names, or a list by places where the dialect allows that. -/
def record {α : Type} (name : String) (fields : Fields α) : Decoder α := fun dialect s =>
  match s.bare with
  | .record _ members close => fromObject fields dialect members close
  | .list start entries close =>
    if dialect = .yaml then .error ((Source.list start entries close).unexpected name)
    else fromArray name fields dialect entries close
  | .plain "" => fromObject fields dialect [] (.ok {})
  | other => .error (other.unexpected name)

end Decoder

/-- Decodes a JSON value. -/
def decodeValue {α : Type} (d : Decoder α) (j : Json) : Except DecodeError α :=
  d .value (.ofJson j)

/-- Decodes a JSON text; what follows the value is looked at last. -/
def decodeText {α : Type} (d : Decoder α) (text : String) : Except DecodeError α := do
  let (s, trailing) := Json.source text
  match d .text s with
  | .error e => .error e
  | .ok a =>
    match trailing with
    | some fault => .error (.ofFault fault)
    | none => .ok a

end CallChain
