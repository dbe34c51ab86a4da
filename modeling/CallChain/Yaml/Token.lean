import CallChain.Yaml.Property

/-!
# Tokens of YAML texts

A text is a list of tokens. Indentation is made explicit: where a block starts or ends, a token says
so. What turns out to be a key when its colon is met is marked as one afterwards, so a token may
have to be put in before others.

* `Yaml.Token`: the tokens.
* `Yaml.KeyPlace`: where a key may have started.
* `Yaml.Lexing`: the tokens so far, the place reached, and what decides how to go on.
* `Yaml.tokens`: the tokens of a text, or why there are none.
-/

set_option autoImplicit false

namespace CallChain

namespace Yaml

/-! ### Tokens -/

/-- **The tokens of a text.** -/
inductive Token where
  | directive (directive : Directive)
  | documentStart
  | documentEnd
  | blockList
  | blockMap
  | blockEnd
  | flowList
  | flowListEnd
  | flowMap
  | flowMapEnd
  | entry
  | comma
  | key
  | value
  | alias (name : String)
  | anchor (name : String)
  | tag (tag : Tag)
  | scalar (isPlain : Bool) (text : String)
deriving DecidableEq, Repr, Inhabited

/-! ### The state -/

/-- **Where a key may have started**: how many tokens lie before it, its place, and whether it must
be one. -/
structure KeyPlace where
  tokens : Nat
  index : Nat
  line : Nat
  column : Nat
  required : Bool
deriving Inhabited

/-- A key ends on the line where it starts, within this many characters. -/
def keyLimit : Nat := 1024

/-- **The state of reading tokens.** -/
structure Lexing where
  place : Place
  /-- The tokens read, last first, and their number. -/
  tokens : List Token := []
  count : Nat := 0
  /-- The columns of the open blocks, innermost first. -/
  blocks : List Nat := []
  /-- The key that may have started within the innermost brackets, or outside all. -/
  key? : Option KeyPlace := none
  /-- The same for the brackets around, innermost first. -/
  outerKeys : List (Option KeyPlace) := []
  /-- Whether a key may start here. -/
  keyAllowed : Bool := true
deriving Inhabited

namespace Lexing

/-- Whether the place is within brackets. -/
def inFlow (s : Lexing) : Bool := !s.outerKeys.isEmpty

/-- The column that the lines of a scalar must reach. -/
def nextColumn (s : Lexing) : Nat :=
  match s.blocks with
  | [] => 0
  | column :: _ => column + 1

/-- Adds a token. -/
def add (s : Lexing) (t : Token) : Lexing :=
  { s with tokens := t :: s.tokens, count := s.count + 1 }

/-- Puts a token in after so many others. -/
def insertAfter (s : Lexing) (before : Nat) (t : Token) : Lexing :=
  let later := s.count - before
  { s with
    tokens := s.tokens.take later ++ t :: s.tokens.drop later
    count := s.count + 1 }

/-! ### Keys -/

/-- Gives up a key that has become too long, unless it must be one. -/
def expire (p : Place) : Option KeyPlace → Except YamlFault (Option KeyPlace)
  | none => .ok none
  | some k =>
    if k.line < p.line || k.index + keyLimit < p.index then
      if k.required then .error .missingColon else .ok none
    else .ok (some k)

/-- Gives up all keys that have become too long. -/
def expireKeys (s : Lexing) : Except YamlFault Lexing := do
  let key? ← expire s.place s.key?
  let outerKeys ← s.outerKeys.mapM (expire s.place)
  return { s with key? := key?, outerKeys := outerKeys }

/-- Gives up the key that may have started, unless it must be one. -/
def dropKey (s : Lexing) : Except YamlFault Lexing :=
  if s.key?.any (·.required) then .error .missingColon else .ok { s with key? := none }

/-- Notes that a key may start here. -/
def noteKey (s : Lexing) : Except YamlFault Lexing :=
  if s.keyAllowed then do
    let s ← s.dropKey
    let p := s.place
    let required := !s.inFlow && s.blocks.head? = some p.column
    return { s with key? := some ⟨s.count, p.index, p.line, p.column, required⟩ }
  else .ok s

/-! ### Indentation -/

/-- Closes the blocks that are indented beyond a column. -/
def closeBlocks (column : Nat) (s : Lexing) : Lexing :=
  if s.inFlow then s else
  let closed := s.blocks.takeWhile (column < ·)
  { s with
    tokens := closed.map (fun _ => Token.blockEnd) ++ s.tokens
    count := s.count + closed.length
    blocks := s.blocks.drop closed.length }

/-- Closes all blocks. -/
def closeAllBlocks (s : Lexing) : Lexing :=
  if s.inFlow then s else
  { s with
    tokens := s.blocks.map (fun _ => Token.blockEnd) ++ s.tokens
    count := s.count + s.blocks.length
    blocks := [] }

/-- Opens a block at a column, after so many tokens, unless one is open there. -/
def openBlock (column before : Nat) (t : Token) (s : Lexing) : Lexing :=
  if s.inFlow || s.blocks.head?.any (column ≤ ·) then s
  else { s.insertAfter before t with blocks := column :: s.blocks }

/-- Opens a block here. -/
def openBlockHere (t : Token) (s : Lexing) : Lexing := s.openBlock s.place.column s.count t

/-! ### Single tokens -/

/-- Moves to another place. -/
def moveTo (s : Lexing) (p : Place) : Lexing := { s with place := p }

/-- Says whether a key may start next. -/
def allowKey (s : Lexing) (allowed : Bool) : Lexing := { s with keyAllowed := allowed }

/-- Moves past so many characters and adds a token. -/
def take (n : Nat) (t : Token) (s : Lexing) : Lexing :=
  (s.moveTo (s.place.skipMany n)).add t

/-- Moves past blanks, comments and line ends. Tabs count as blanks within brackets and where no key
may start. -/
def skipSpace : Nat → Lexing → Lexing
  | 0, s => s
  | fuel + 1, s =>
    let p := s.place
    let p := if p.index = 0 && p.rest.head? = some '\ufeff' then p.skip else p
    let tabs := s.inFlow || !s.keyAllowed
    let p := (p.skipWhile (fun c => c = ' ' || (tabs && c = '\t'))).skipComment
    match p.lineBreak with
    | (some _, q) => skipSpace fuel ((s.moveTo q).allowKey (s.keyAllowed || !s.inFlow))
    | (none, _) => s.moveTo p

/-- Reads the end of the text. -/
def finish (s : Lexing) : Except YamlFault Lexing := do
  let s ← s.closeAllBlocks.dropKey
  return s.allowKey false

/-- Reads the marker of a document. -/
def takeMarker (t : Token) (s : Lexing) : Except YamlFault Lexing := do
  let s ← s.closeAllBlocks.dropKey
  return (s.allowKey false).take 3 t

/-- Reads a directive. -/
def takeDirective (s : Lexing) : Except YamlFault Lexing := do
  let s ← s.closeAllBlocks.dropKey
  let (directive, p) ← readDirective s.place
  return ((s.allowKey false).moveTo p).add (.directive directive)

/-- Reads an opening bracket. -/
def takeOpening (t : Token) (s : Lexing) : Except YamlFault Lexing := do
  let s ← s.noteKey
  let s := { s with key? := none, outerKeys := s.key? :: s.outerKeys }
  return (s.allowKey true).take 1 t

/-- Reads a closing bracket. -/
def takeClosing (t : Token) (s : Lexing) : Except YamlFault Lexing := do
  let s ← s.dropKey
  let s := match s.outerKeys with
    | [] => s
    | key? :: outer => { s with key? := key?, outerKeys := outer }
  return (s.allowKey false).take 1 t

/-- Reads a comma between items. -/
def takeComma (s : Lexing) : Except YamlFault Lexing := do
  let s ← s.dropKey
  return (s.allowKey true).take 1 .comma

/-- Reads the hyphen of an item. -/
def takeEntry (s : Lexing) : Except YamlFault Lexing := do
  if !s.inFlow && !s.keyAllowed then throw .misplacedEntry
  let s ← (s.openBlockHere .blockList).dropKey
  return (s.allowKey true).take 1 .entry

/-- Reads the question mark of a key. -/
def takeKey (s : Lexing) : Except YamlFault Lexing := do
  if !s.inFlow && !s.keyAllowed then throw .misplacedKey
  let s ← (s.openBlockHere .blockMap).dropKey
  return (s.allowKey !s.inFlow).take 1 .key

/-- **Reads the colon of a value.** If a key may have started before it, that is a key now, and it
may be the first of a block. -/
def takeValue (s : Lexing) : Except YamlFault Lexing :=
  match s.key? with
  | some k =>
    let s := (s.insertAfter k.tokens .key).openBlock k.column k.tokens .blockMap
    .ok (({ s with key? := none }.allowKey false).take 1 .value)
  | none =>
    if !s.inFlow && !s.keyAllowed then .error .misplacedValue
    else .ok (((s.openBlockHere .blockMap).allowKey !s.inFlow).take 1 .value)

/-- Reads the name of an anchor or an alias. -/
def takeName (t : String → Token) (s : Lexing) : Except YamlFault Lexing := do
  let s ← s.noteKey
  let (name, p) ← readName s.place
  return ((s.allowKey false).moveTo p).add (t name)

/-- Reads a tag. -/
def takeTag (s : Lexing) : Except YamlFault Lexing := do
  let s ← s.noteKey
  let (tag, p) ← readTag s.inFlow s.place
  return ((s.allowKey false).moveTo p).add (.tag tag)

/-- Reads a block of lines. -/
def takeBlock (folded : Bool) (s : Lexing) : Except YamlFault Lexing := do
  let s ← s.dropKey
  let (text, p) ← readBlock folded s.nextColumn s.place
  return ((s.allowKey true).moveTo p).add (.scalar false text)

/-- Reads a scalar in quotes. -/
def takeQuoted (single : Bool) (s : Lexing) : Except YamlFault Lexing := do
  let s ← s.noteKey
  let (text, p) ← readQuoted single s.place
  return ((s.allowKey false).moveTo p).add (.scalar false text)

/-- Reads a plain scalar; a key may start on the line after it. -/
def takePlain (s : Lexing) : Except YamlFault Lexing := do
  let s ← s.noteKey
  let plain ← readPlain s.inFlow s.nextColumn s.place
  return ((s.allowKey plain.broken).moveTo plain.after).add (.scalar true plain.text)

/-- The signs with which no plain scalar starts. -/
def isIndicator (c : Char) : Bool :=
  c ∈ ['-', '?', ':', ',', '[', ']', '\x7b', '\x7d', '#', '&', '*', '!', '|', '>', '\'', '"', '%',
    '@', '\x60']

/-- Whether a plain scalar starts with what follows. -/
def startsPlain (inFlow : Bool) : List Char → Bool
  | [] => false
  | '-' :: rest => !rest.head?.any isBlank
  | '?' :: rest => !inFlow && !endsWord rest
  | ':' :: rest => !inFlow && !endsWord rest
  | c :: _ => !isBlank c && !isBreak c && !isIndicator c

/-- **Reads one token**, of which the first character is the next one. -/
def takeToken (s : Lexing) : Except YamlFault Lexing :=
  let p := s.place
  let atStart := p.column = 0
  let inFlow := s.inFlow
  match p.rest with
  | [] => .ok s
  | c :: rest =>
    if atStart && c = '%' then s.takeDirective
    else if p.atMarker then
      s.takeMarker (if c = '-' then Token.documentStart else Token.documentEnd)
    else match c with
    | '[' => s.takeOpening .flowList
    | '\x7b' => s.takeOpening .flowMap
    | ']' => s.takeClosing .flowListEnd
    | '\x7d' => s.takeClosing .flowMapEnd
    | ',' => s.takeComma
    | '*' => s.takeName .alias
    | '&' => s.takeName .anchor
    | '!' => s.takeTag
    | '\'' => s.takeQuoted true
    | '"' => s.takeQuoted false
    | c =>
      if c = '-' && endsWord rest then s.takeEntry
      else if c = '?' && (inFlow || endsWord rest) then s.takeKey
      else if c = ':' && (inFlow || endsWord rest) then s.takeValue
      else if c = '|' && !inFlow then s.takeBlock false
      else if c = '>' && !inFlow then s.takeBlock true
      else if startsPlain inFlow p.rest then s.takePlain
      else .error .strayCharacter

/-- Reads tokens up to the end of the text. -/
def takeTokens : Nat → Lexing → Except YamlFault Lexing
  | 0, s => .ok s
  | fuel + 1, s => do
    let s := s.skipSpace (s.place.rest.length + 1)
    let s ← s.expireKeys
    if s.place.rest.isEmpty then s.finish
    else
      let s ← (s.closeBlocks s.place.column).takeToken
      takeTokens fuel s

end Lexing

/-- **The tokens of a text**, or why there are none. -/
def tokens (text : String) : Except YamlFault (List Token) := do
  let cs := text.toList
  if !cs.all isAllowed then throw .controlCharacter
  let s ← Lexing.takeTokens (cs.length + 1) { place := { rest := cs } }
  return s.tokens.reverse

end Yaml

end CallChain
