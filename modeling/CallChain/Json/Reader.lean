import CallChain.Json.Source
import CallChain.Number.Reading

/-!
# Reading JSON texts

A text becomes a `Source`. The reader never fails: where the text is no JSON, the tree holds the
fault at the place where reading stopped.

**Numbers.** A literal of digits alone that fits sixty-four bits is a whole number. Every other
literal is a double: its first digits, as many as fit sixty-four bits, are rounded to a double and
scaled by a power of ten in machine arithmetic. `-0` is the double negative zero.

* `Cursor`: the rest of a text and the place reached.
* `Json.source`: the source of a text.
* `Json.read`: the JSON value of a text, or the first fault.
-/

set_option autoImplicit false

namespace CallChain

/-- The rest of a text and the place reached in it. -/
structure Cursor where
  rest : List Char
  mark : Mark := {}

namespace Cursor

/-- The place after the next byte; at the end of the text the place itself. -/
def peekMark (c : Cursor) : Mark :=
  match c.rest with
  | [] => c.mark
  | ch :: _ => if ch = '\n' then ⟨c.mark.line + 1, 0⟩ else c.mark.next

/-- Moves past one character. -/
def step (c : Cursor) : Cursor :=
  match c.rest with
  | [] => c
  | ch :: rest => ⟨rest, c.mark.advance ch⟩

/-- The blanks of the grammar. -/
def isBlank (c : Char) : Bool := c = ' ' || c = '\n' || c = '\t' || c = '\r'

/-- Moves past blanks. -/
def skipBlanks : List Char → Mark → Cursor
  | [], m => ⟨[], m⟩
  | ch :: rest, m => if isBlank ch then skipBlanks rest (m.advance ch) else ⟨ch :: rest, m⟩

/-- Moves past blanks. -/
def blanks (c : Cursor) : Cursor := skipBlanks c.rest c.mark

/-- Moves past blanks and one character of the given ones, if it follows. -/
def settle (c : Cursor) (close : Char) : Cursor :=
  let c := c.blanks
  match c.rest with
  | ch :: _ => if ch = close then c.step else c
  | [] => c

/-- Moves past blanks and a closing bracket, or past a comma and the blanks around it. -/
def settleItem (c : Cursor) : Cursor :=
  let c := c.blanks
  match c.rest with
  | ']' :: _ => c.step
  | ',' :: _ => c.step.blanks
  | _ => c

/-- Moves past the digits that follow and returns them. -/
def digits : List Char → Mark → List Char × Cursor
  | [], m => ([], ⟨[], m⟩)
  | ch :: rest, m =>
    if ch.isDigit then
      let (ds, c) := digits rest (m.advance ch)
      (ch :: ds, c)
    else ([], ⟨ch :: rest, m⟩)

/-- The fault of a cause at the place reached. -/
def here {α : Type} (c : Cursor) (cause : ReadCause) : Except ReadFault α :=
  .error ⟨cause, c.mark⟩

/-- The fault of a cause at the next byte. -/
def ahead {α : Type} (c : Cursor) (cause : ReadCause) : Except ReadFault α :=
  .error ⟨cause, c.peekMark⟩

end Cursor

namespace Json

/-! ### Words -/

/-- Reads the rest of a literal word. -/
def readWord : List Char → Cursor → Except ReadFault Cursor
  | [], c => .ok c
  | expected :: more, c =>
    match c.rest with
    | [] => c.here .endInValue
    | ch :: _ => if ch = expected then readWord more c.step else .error ⟨.expectedIdent, c.peekMark⟩

/-! ### Numbers -/

/-- The greatest number of sixty-four bits. -/
def wordMax : Nat := Nat.pow 2 64 - 1

/-- The number made of as many digits as fit sixty-four bits, and the digits left over. -/
def significand : Nat → List Char → Nat × List Char
  | n, [] => (n, [])
  | n, d :: rest =>
    let more := n * 10 + digitValue d
    if more ≤ wordMax then significand more rest else (n, d :: rest)

/-- A power of ten as a double. -/
def powerOfTen (k : Nat) : Float := Float.ofScientific 1 false k

/-- Divides by the greatest power of ten in range until the exponent is in range too. -/
def scaleDown (fuel : Nat) (x : Float) (exponent : Nat) : Float :=
  match fuel with
  | 0 => 0
  | fuel + 1 =>
    if exponent ≤ 308 then x / powerOfTen exponent
    else if x == 0 then x
    else scaleDown fuel (x / powerOfTen 308) (exponent - 308)

/-- **The double of a significand and a power of ten**, scaled in machine arithmetic; nothing if
it is beyond the range of doubles. -/
def scaled? (significand : Nat) (exponent : Int) : Option Float :=
  let x : Float := significand.toUInt64.toFloat
  match exponent with
  | .ofNat k =>
    if k ≤ 308 then
      let y := x * powerOfTen k
      if y.isInf then none else some y
    else if significand = 0 then some x else none
  | .negSucc k => some (scaleDown (k / 308 + 2) x (k + 1))

/-- Reads the digits of an exponent: the letter has been seen, a sign may follow. -/
def readExponent (c : Cursor) : Except ReadFault (Int × Cursor) :=
  let c := c.step
  let (negative, c) : Bool × Cursor :=
    match c.rest with
    | '+' :: _ => (false, c.step)
    | '-' :: _ => (true, c.step)
    | _ => (false, c)
  match c.rest with
  | [] => c.here .endInValue
  | ch :: _ =>
    if ch.isDigit then
      let (ds, c) := Cursor.digits c.rest c.mark
      let value : Nat := ds.foldl (fun n d => n * 10 + digitValue d) 0
      .ok (if negative then -(value : Int) else value, c)
    else .error ⟨.invalidNumber, c.peekMark⟩

/-- The exponent that may end a number. -/
def readTail (c : Cursor) : Except ReadFault (Int × Cursor) :=
  match c.rest with
  | 'e' :: _ => readExponent c
  | 'E' :: _ => readExponent c
  | _ => .ok (0, c)

/-- A double with a sign, or the fault of a number out of range. -/
def finish (negative : Bool) (significand : Nat) (exponent : Int) (c : Cursor) :
    Except ReadFault (Number × Cursor) :=
  match scaled? significand exponent with
  | none => c.here .numberOutOfRange
  | some x =>
    match Double.ofFloat? (if negative then -x else x) with
    | none => c.here .numberOutOfRange
    | some d => .ok (.double d, c)

/-- Reads a number; a minus has been read already. -/
def readUnsigned (negative : Bool) (c : Cursor) : Except ReadFault (Number × Cursor) := do
  match c.rest with
  | [] => c.here .endInValue
  | first :: _ =>
    if ¬ first.isDigit then .error ⟨.invalidNumber, c.peekMark⟩ else
    let (whole, c) :=
      if first = '0' then (['0'], c.step) else Cursor.digits c.rest c.mark
    if first = '0' && (c.rest.head?.any Char.isDigit) then c.ahead .invalidNumber else
    let (n, left) := significand 0 whole
    match c.rest with
    | '.' :: _ =>
      let c := c.step
      let (fraction, c) := Cursor.digits c.rest c.mark
      if fraction.isEmpty then
        c.ahead (if c.rest.isEmpty then .endInValue else .invalidNumber)
      else
        let (n, unused) := significand n fraction
        let used : Int := fraction.length - unused.length
        let (e, c) ← readTail c
        finish negative n (left.length - used + e) c
    | _ =>
      let isDouble := !left.isEmpty || c.rest.head? == some 'e' || c.rest.head? == some 'E'
      if isDouble then
        let (e, c) ← readTail c
        finish negative n (left.length + e) c
      else if negative then
        if n = 0 || n > Nat.pow 2 63 then finish true n 0 c else .ok (.int (-(n : Int)), c)
      else .ok (.int n, c)

/-- Reads a number. -/
def readNumber (c : Cursor) : Except ReadFault (Number × Cursor) :=
  match c.rest with
  | '-' :: _ => readUnsigned true c.step
  | _ => readUnsigned false c

/-! ### Strings -/

/-- Reads four hexadecimal digits. -/
def readHex (c : Cursor) : Except ReadFault (Nat × Cursor) :=
  match c.rest with
  | a :: b :: x :: y :: rest =>
    let c' : Cursor := ⟨rest, (((c.mark.advance a).advance b).advance x).advance y⟩
    match hexValue? a, hexValue? b, hexValue? x, hexValue? y with
    | some a, some b, some x, some y => .ok (((a * 16 + b) * 16 + x) * 16 + y, c')
    | _, _, _, _ => c'.here .invalidEscape
  | _ => .error ⟨.endInString, c.rest.foldl Mark.advance c.mark⟩

/-- Reads the hexadecimal digits of an escape, both halves of a surrogate pair. -/
def readUnicode (c : Cursor) : Except ReadFault (Char × Cursor) := do
  let (high, c) ← readHex c
  if 0xdc00 ≤ high && high ≤ 0xdfff then c.here .loneSurrogate
  else if 0xd800 ≤ high && high ≤ 0xdbff then
    match c.rest with
    | '\\' :: 'u' :: _ =>
      let (low, c) ← readHex c.step.step
      if 0xdc00 ≤ low && low ≤ 0xdfff then
        .ok (Char.ofNat (0x10000 + (high - 0xd800) * 0x400 + (low - 0xdc00)), c)
      else c.here .loneSurrogate
    | '\\' :: _ :: _ => c.step.step.here .unexpectedEndOfEscape
    | ['\\'] => c.step.here .endInString
    | [] => c.here .endInString
    | _ => c.step.here .unexpectedEndOfEscape
  else .ok (Char.ofNat high, c)

/-- Reads one escape; the backslash has been read. -/
def readEscape (c : Cursor) : Except ReadFault (Char × Cursor) :=
  match c.rest with
  | [] => c.here .endInString
  | '"' :: _ => .ok ('"', c.step)
  | '\\' :: _ => .ok ('\\', c.step)
  | '/' :: _ => .ok ('/', c.step)
  | 'b' :: _ => .ok ('\x08', c.step)
  | 'f' :: _ => .ok ('\x0c', c.step)
  | 'n' :: _ => .ok ('\n', c.step)
  | 'r' :: _ => .ok ('\r', c.step)
  | 't' :: _ => .ok ('\t', c.step)
  | 'u' :: _ => readUnicode c.step
  | _ => c.step.here .invalidEscape

/-- Reads the characters of a string up to its end quote; the fuel is the length of the rest. -/
def readChars : Nat → Cursor → List Char → Except ReadFault (String × Cursor)
  | 0, c, _ => c.here .endInString
  | fuel + 1, c, read =>
    match c.rest with
    | [] => c.here .endInString
    | '"' :: _ => .ok (String.ofList read.reverse, c.step)
    | '\\' :: _ => do
      let (ch, c) ← readEscape c.step
      readChars fuel c (ch :: read)
    | ch :: _ =>
      if ch.toNat < 32 then c.step.here .controlCharacter
      else readChars fuel c.step (ch :: read)

/-- Reads a string; its first quote has been read. -/
def readString (c : Cursor) : Except ReadFault (String × Cursor) :=
  readChars (c.rest.length + 1) c []

/-! ### Values -/

/-- What has been read and where reading goes on, which is nowhere after a fault. -/
abbrev Reading (α : Type) := α × Option Cursor

/-- A source of a scalar from the answer of its reader. -/
def scalarReading {α : Type} (start : Cursor) (wrap : α → Scalar)
    (answer : Except ReadFault (α × Cursor)) : Reading Source :=
  match answer with
  | .ok (v, c) => (.scalar (wrap v) ⟨start.mark, c.mark⟩, some c)
  | .error fault => (.broken start.mark fault, none)

/-- A source of a word. -/
def wordReading (start : Cursor) (word : String) (value : Scalar) : Reading Source :=
  scalarReading start (fun _ => value)
    ((readWord (word.toList.drop 1) start.step).map (fun c => ((), c)))

mutual

/-- Reads a value after blanks. `depth` bounds how deep containers may still nest. -/
def readValue : Nat → Nat → Cursor → Reading Source
  | 0, _, c => (.broken c.mark ⟨.endInValue, c.mark⟩, none)
  | fuel + 1, depth, c =>
    let c := c.blanks
    let broken (cause : ReadCause) : Reading Source := (.broken c.mark ⟨cause, c.peekMark⟩, none)
    match c.rest with
    | [] => broken .endInValue
    | 'n' :: _ => wordReading c "null" .null
    | 't' :: _ => wordReading c "true" (.bool true)
    | 'f' :: _ => wordReading c "false" (.bool false)
    | '"' :: _ => scalarReading c .str (readString c.step)
    | '[' :: _ =>
      if depth ≤ 1 then broken .tooDeep else
      let (items, close, next) := readItems fuel (depth - 1) true c.step
      (.list c.mark items close, next)
    | '\x7b' :: _ =>
      if depth ≤ 1 then broken .tooDeep else
      let (members, close, next) := readMembers fuel (depth - 1) true c.step
      (.record c.mark members close, next)
    | ch :: _ =>
      if ch = '-' || ch.isDigit then scalarReading c .num (readNumber c) else broken .expectedValue

/-- Reads the items of a list up to its end. -/
def readItems : Nat → Nat → Bool → Cursor →
    List (Source × Mark) × Except ReadFault Mark × Option Cursor
  | 0, _, _, c => ([], c.here .endInList, none)
  | fuel + 1, depth, first, c =>
    let c := c.blanks
    let item (c : Cursor) : List (Source × Mark) × Except ReadFault Mark × Option Cursor :=
      match readValue fuel depth c with
      | (source, none) => ([(source, c.mark)], .ok c.mark, none)
      | (source, some after) =>
        let (items, close, next) := readItems fuel depth false after
        ((source, after.settleItem.mark) :: items, close, next)
    match c.rest with
    | [] => ([], c.ahead .endInList, none)
    | ']' :: _ => ([], .ok c.step.mark, some c.step)
    | ',' :: _ =>
      if first then item c else
      let c := c.step.blanks
      match c.rest with
      | [] => ([], c.ahead .endInValue, none)
      | ']' :: _ => ([], c.ahead .trailingComma, none)
      | _ => item c
    | _ => if first then item c else ([], c.ahead .expectedListEnd, none)

/-- Reads the members of an object up to its end. -/
def readMembers : Nat → Nat → Bool → Cursor →
    List (MemberName × Source × Mark) × Except ReadFault Mark × Option Cursor
  | 0, _, _, c => ([], c.here .endInObject, none)
  | fuel + 1, depth, first, c =>
    let c := c.blanks
    let member (c : Cursor) :
        List (MemberName × Source × Mark) × Except ReadFault Mark × Option Cursor :=
      match readString c.step with
      | .error fault => ([], .error fault, none)
      | .ok (name, c) =>
        let key : MemberName := ⟨name, (c.settle '\x7d').mark⟩
        let c := c.blanks
        let colon : Except ReadFault Cursor :=
          match c.rest with
          | ':' :: _ => .ok c.step
          | [] => c.ahead .endInObject
          | _ => c.ahead .expectedColon
        match colon with
        | .error fault => ([(key, .broken c.mark fault, c.mark)], .ok c.mark, none)
        | .ok c =>
          match readValue fuel depth c with
          | (source, none) => ([(key, source, c.mark)], .ok c.mark, none)
          | (source, some after) =>
            let (members, close, next) := readMembers fuel depth false after
            ((key, source, (after.settle '\x7d').mark) :: members, close, next)
    match c.rest with
    | [] => ([], c.ahead .endInObject, none)
    | '\x7d' :: _ => ([], .ok c.step.mark, some c.step)
    | '"' :: _ => if first then member c else ([], c.ahead .expectedObjectEnd, none)
    | ',' :: _ =>
      if first then ([], c.ahead .keyMustBeString, none) else
      let c := c.step.blanks
      match c.rest with
      | [] => ([], c.ahead .endInValue, none)
      | '"' :: _ => member c
      | '\x7d' :: _ => ([], c.ahead .trailingComma, none)
      | _ => ([], c.ahead .keyMustBeString, none)
    | _ => ([], c.ahead (if first then .keyMustBeString else .expectedObjectEnd), none)

end

/-- How deep containers may nest, plus one. -/
def depthLimit : Nat := 128

/-- **The source of a JSON text**, and the fault of what follows the value, if anything but blanks
does. -/
def source (text : String) : Source × Option ReadFault :=
  let cs := text.toList
  match readValue (2 * cs.length + 2) depthLimit ⟨cs, {}⟩ with
  | (s, none) => (s, none)
  | (s, some c) =>
    let c := c.blanks
    if c.rest.isEmpty then (s, none) else (s, some ⟨.trailingCharacters, c.peekMark⟩)

/-- **The JSON value of a text**, or the first fault. -/
def read (text : String) : Except ReadFault Json := do
  let (s, trailing) := source text
  let j ← s.toJson
  match trailing with
  | some fault => .error fault
  | none => return j

end Json

end CallChain
