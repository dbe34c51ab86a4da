import CallChain.Yaml.Fault

/-!
# Places in YAML texts

* `Yaml.isBlank`, `Yaml.isBreak`, `Yaml.isWordLetter`, `Yaml.isAllowed`: classes of characters.
* `Yaml.takeBreak`: a line break, of which a carriage return before a line feed is part.
* `Yaml.Place`: the rest of a text and the place reached in it.
-/

set_option autoImplicit false

namespace CallChain

namespace Yaml

/-! ### Characters -/

/-- A space or a tab. -/
def isBlank (c : Char) : Bool := c = ' ' || c = '\t'

/-- A character that ends a line. -/
def isBreak (c : Char) : Bool :=
  c = '\n' || c = '\r' || c = '\u0085' || c = '\u2028' || c = '\u2029'

/-- A character of names: a letter, a digit, `_` or `-`. -/
def isWordLetter (c : Char) : Bool := c.isAlphanum || c = '_' || c = '-'

/-- The characters that a text may hold. -/
def isAllowed (c : Char) : Bool :=
  let n := c.toNat
  n = 0x09 || n = 0x0a || n = 0x0d || (0x20 ≤ n && n ≤ 0x7e) || n = 0x85
    || (0xa0 ≤ n && n ≤ 0xd7ff) || (0xe000 ≤ n && n ≤ 0xfffd) || 0x10000 ≤ n

/-- Whether a line break or the end of the text follows. -/
def endsLine : List Char → Bool
  | [] => true
  | c :: _ => isBreak c

/-- Whether a blank, a line break or the end of the text follows. -/
def endsWord : List Char → Bool
  | [] => true
  | c :: _ => isBlank c || isBreak c

/-- Whether the marker of a document follows; it must be at the start of a line. -/
def startsMarker : List Char → Bool
  | '-' :: '-' :: '-' :: rest => endsWord rest
  | '.' :: '.' :: '.' :: rest => endsWord rest
  | _ => false

/-- The line break that starts a text, as one character, and what follows it. All but the two
Unicode separators stand for a line feed. -/
def takeBreak : List Char → Option (Char × List Char)
  | '\r' :: '\n' :: rest => some ('\n', rest)
  | c :: rest =>
    if c = '\u2028' || c = '\u2029' then some (c, rest)
    else if isBreak c then some ('\n', rest)
    else none
  | [] => none

/-! ### Places -/

/-- **The rest of a text and the place reached in it**: how many characters of the text and of its
line lie before the place, and how many lines. -/
structure Place where
  rest : List Char
  index : Nat := 0
  line : Nat := 0
  column : Nat := 0
deriving Inhabited

namespace Place

/-- Moves past a character within a line. -/
def skip (p : Place) : Place :=
  { p with rest := p.rest.drop 1, index := p.index + 1, column := p.column + 1 }

/-- Moves past so many characters within a line. -/
def skipMany : Nat → Place → Place
  | 0, p => p
  | n + 1, p => skipMany n p.skip

/-- Moves past a line break and returns it, if one follows. -/
def lineBreak (p : Place) : Option Char × Place :=
  match takeBreak p.rest with
  | none => (none, p)
  | some (c, rest) =>
    (some c, ⟨rest, p.index + (p.rest.length - rest.length), p.line + 1, 0⟩)

/-- Moves past the characters within the line that a test accepts. -/
def skipWhile (test : Char → Bool) (p : Place) : Place :=
  skipMany (p.rest.takeWhile test).length p

/-- Moves past the rest of the line. -/
def skipLine (p : Place) : Place := p.skipWhile (fun c => !isBreak c)

/-- Moves past a comment, if one follows. -/
def skipComment (p : Place) : Place := if p.rest.head? = some '#' then p.skipLine else p

/-- Whether the marker of a document stands here. -/
def atMarker (p : Place) : Bool := p.column = 0 && startsMarker p.rest

end Place

end Yaml

end CallChain
