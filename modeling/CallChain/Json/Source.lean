import CallChain.Json.Document
import CallChain.Yaml.Fault

/-!
# Sources: trees to decode from

A typed value is decoded from a `Source`: a JSON value, a JSON text, or a YAML text. The three
share one shape. A source from a text also knows where its parts stand, and it may end early: where
reading had to stop, the tree holds the fault. A decoder that meets its own objection before that
place reports the objection, one that gets there reports the fault, exactly as if text were read
and decoded in one pass.

* `Mark`: a place in a text.
* `ReadFault`: why and where reading a text stopped, with `ReadCause.message`.
* `Source`: the tree; `Source.bare` looks through a tag.
* `Source.ofJson`, `Source.toJson`: to and from JSON values.
-/

set_option autoImplicit false

namespace CallChain

/-! ### Places -/

/-- **A place in a text**: the line, from one, and how many bytes of it lie before the place. -/
structure Mark where
  line : Nat := 1
  column : Nat := 0
deriving DecidableEq, Repr, Inhabited

namespace Mark

/-- The place after one more byte that is no line end. -/
def next (m : Mark) : Mark := { m with column := m.column + 1 }

/-- The place after a character. -/
def advance (m : Mark) (c : Char) : Mark :=
  if c = '\n' then ⟨m.line + 1, 0⟩ else { m with column := m.column + c.utf8Size }

/-- How a place is named at the end of a message. -/
def text (m : Mark) : String := s!" at line {m.line} column {m.column}"

end Mark

/-- The places before and after a token. -/
structure Span where
  start : Mark := {}
  stop : Mark := {}
deriving DecidableEq, Repr, Inhabited

/-! ### Faults -/

/-- **Why reading a text stopped.** -/
inductive ReadCause where
  | endInList
  | endInObject
  | endInString
  | endInValue
  | expectedColon
  | expectedListEnd
  | expectedObjectEnd
  | expectedIdent
  | expectedValue
  | invalidEscape
  | invalidNumber
  | numberOutOfRange
  | invalidCodePoint
  | controlCharacter
  | keyMustBeString
  | loneSurrogate
  | trailingComma
  | trailingCharacters
  | unexpectedEndOfEscape
  | tooDeep
  /-- The text is YAML, and so is its fault. -/
  | yaml (fault : YamlFault)
deriving DecidableEq, Repr

/-- The wording of a cause. -/
def ReadCause.message : ReadCause → String
  | .endInList => "EOF while parsing a list"
  | .endInObject => "EOF while parsing an object"
  | .endInString => "EOF while parsing a string"
  | .endInValue => "EOF while parsing a value"
  | .expectedColon => "expected `:`"
  | .expectedListEnd => "expected `,` or `]`"
  | .expectedObjectEnd => "expected `,` or `\x7d`"
  | .expectedIdent => "expected ident"
  | .expectedValue => "expected value"
  | .invalidEscape => "invalid escape"
  | .invalidNumber => "invalid number"
  | .numberOutOfRange => "number out of range"
  | .invalidCodePoint => "invalid unicode code point"
  | .controlCharacter => "control character (\\u0000-\\u001F) found while parsing a string"
  | .keyMustBeString => "key must be a string"
  | .loneSurrogate => "lone leading surrogate in hex escape"
  | .trailingComma => "trailing comma"
  | .trailingCharacters => "trailing characters"
  | .unexpectedEndOfEscape => "unexpected end of hex escape"
  | .tooDeep => "recursion limit exceeded"
  | .yaml fault => fault.message

/-- **A fault in a text**: why and where reading stopped. -/
structure ReadFault where
  cause : ReadCause
  place : Mark
deriving DecidableEq, Repr

/-! ### The tree -/

/-- A value without parts. -/
inductive Scalar where
  | null
  | bool (value : Bool)
  | num (value : Number)
  | str (value : String)
deriving DecidableEq, Inhabited

/-- The name of a member and the place reached after it and the blanks behind it. -/
structure MemberName where
  text : String
  settled : Mark := {}
deriving DecidableEq, Inhabited

/-- **What a tag says of a node.** The tags of the standard types settle how a scalar is read;
a tag of the text's own has no meaning for a free value. -/
inductive NodeTag where
  | null
  | bool
  | int
  | float
  /-- A string, or a type that is none of the above. -/
  | other
  /-- A tag of the text's own, by its name. -/
  | own (name : String)
deriving DecidableEq, Repr

/-- **A tree to decode from.** Beside each item or member stands the place reached after it, the
blanks behind it and a closing bracket, if one follows. -/
inductive Source where
  /-- A value without parts. -/
  | scalar (value : Scalar) (span : Span)
  /-- A scalar whose sort is not settled: the reader of a string takes its text, the reader of a
  number or a free value interprets it. -/
  | plain (text : String)
  /-- A node with a tag. -/
  | tagged (tag : NodeTag) (inner : Source)
  /-- A list, the place before it, and the place after it or the fault that ended it. -/
  | list (start : Mark) (items : List (Source × Mark)) (close : Except ReadFault Mark)
  /-- An object, likewise. -/
  | record (start : Mark) (members : List (MemberName × Source × Mark))
      (close : Except ReadFault Mark)
  /-- Nothing: reading stopped here. -/
  | broken (start : Mark) (fault : ReadFault)

instance : Inhabited Source := ⟨.scalar .null {}⟩

namespace Source

/-- The place before a source. -/
def start : Source → Mark
  | .scalar _ span => span.start
  | .plain _ => {}
  | .tagged _ inner => inner.start
  | .list start _ _ => start
  | .record start _ _ => start
  | .broken start _ => start

/-- A node without its tag. -/
def bare : Source → Source
  | .tagged _ inner => inner
  | other => other

mutual

/-- **A JSON value as a source**; places are of no account. -/
def ofJson : Json → Source
  | .null => .scalar .null {}
  | .bool b => .scalar (.bool b) {}
  | .num n => .scalar (.num n) {}
  | .str s => .scalar (.str s) {}
  | .arr items => .list {} (ofItems items) (.ok {})
  | .obj members => .record {} (ofMembers members) (.ok {})

/-- The items of an array as sources. -/
def ofItems : List Json → List (Source × Mark)
  | [] => []
  | j :: rest => (ofJson j, {}) :: ofItems rest

/-- The members of an object as sources. -/
def ofMembers : List (String × Json) → List (MemberName × Source × Mark)
  | [] => []
  | (k, j) :: rest => (⟨k, {}⟩, ofJson j, {}) :: ofMembers rest

end

/-- The JSON value of a scalar. -/
def scalarJson : Scalar → Json
  | .null => .null
  | .bool b => .bool b
  | .num n => .num n
  | .str s => .str s

mutual

/-- The JSON value of a source, or the first fault in it. Of several members with one name the
last counts. A scalar whose sort is not settled stands as its text, a node with a tag as it is
without it. -/
def toJson : Source → Except ReadFault Json
  | .scalar v _ => .ok (scalarJson v)
  | .plain text => .ok (.str text)
  | .tagged _ inner => toJson inner
  | .list _ items close => do
    let values ← toItems items
    let _ ← close
    return .arr values
  | .record _ members close => do
    let pairs ← toPairs members
    let _ ← close
    return Json.ofPairs pairs
  | .broken _ fault => .error fault

/-- The JSON values of items. -/
def toItems : List (Source × Mark) → Except ReadFault (List Json)
  | [] => .ok []
  | (s, _) :: rest => do
    let j ← toJson s
    let js ← toItems rest
    return j :: js

/-- The names and JSON values of members, in text order. -/
def toPairs : List (MemberName × Source × Mark) → Except ReadFault (List (String × Json))
  | [] => .ok []
  | (k, s, _) :: rest => do
    let j ← toJson s
    let js ← toPairs rest
    return (k.text, j) :: js

end

end Source

end CallChain
