import CallChain.Number.Reading
import CallChain.Yaml.Place

/-!
# Scalars of YAML texts

A scalar is written plain, in quotes, or as a block of lines. Inside a plain or quoted scalar a
line break folds into a space, and of several line breaks all but the first are kept.

* `Yaml.Gap`, `Gap.fold`: white space inside a scalar and what it stands for.
* `Yaml.readPlain`, `Yaml.readQuoted`, `Yaml.readBlock`: the three ways to write a scalar.

Texts under construction are held last character first.
-/

set_option autoImplicit false

namespace CallChain

namespace Yaml

/-! ### Gaps -/

/-- **White space inside a scalar**: the blanks before the first line break, that break, and the
breaks after it. Blanks after a break count for nothing. -/
structure Gap where
  blanks : List Char := []
  broken : Bool := false
  first? : Option Char := none
  more : List Char := []
deriving Inhabited

namespace Gap

/-- One more blank. -/
def addBlank (g : Gap) (c : Char) : Gap :=
  if g.broken then g else { g with blanks := c :: g.blanks }

/-- One more line break. -/
def addBreak (g : Gap) (c : Char) : Gap :=
  if g.broken then { g with more := c :: g.more }
  else { blanks := [], broken := true, first? := some c, more := [] }

/-- **What a gap stands for**, last character first. -/
def fold (g : Gap) : List Char :=
  if g.broken then
    if g.first? = some '\n' then (if g.more.isEmpty then [' '] else g.more)
    else g.more ++ g.first?.toList
  else g.blanks

end Gap

/-- Reads the white space that follows. After a line break, a tab before the given column is at
fault. -/
def readGap (column : Nat) : Nat → Place → Gap → Except YamlFault (Gap × Place)
  | 0, p, g => .ok (g, p)
  | fuel + 1, p, g =>
    match p.rest with
    | [] => .ok (g, p)
    | c :: _ =>
      if isBlank c then
        if g.broken && c = '\t' && p.column < column then .error .tabAsIndent
        else readGap column fuel p.skip (g.addBlank c)
      else
        match p.lineBreak with
        | (some b, q) => readGap column fuel q (g.addBreak b)
        | (none, _) => .ok (g, p)

/-! ### Plain scalars -/

/-- A plain scalar, whether a line break follows it, and the place after the white space that
follows. -/
structure PlainScalar where
  text : String
  broken : Bool
  after : Place
deriving Inhabited

/-- Whether a bracket or a comma follows. -/
def endsFlowItem : List Char → Bool
  | c :: _ => c ∈ [',', '[', ']', '\x7b', '\x7d']
  | [] => false

/-- Whether a plain scalar ends before what follows. -/
def endsPlain (inFlow : Bool) : List Char → Bool
  | ':' :: rest => endsWord rest
  | rest => inFlow && endsFlowItem rest

/-- Whether a colon follows that may or may not end a plain scalar within brackets. -/
def isAmbiguous : List Char → Bool
  | ':' :: '?' :: _ => true
  | ':' :: rest => endsFlowItem rest
  | _ => false

/-- Reads the characters of a plain scalar. Outside brackets its lines must reach the column. -/
def plainChars (inFlow : Bool) (column : Nat) :
    Nat → Place → List Char → Gap → Except YamlFault PlainScalar
  | 0, p, text, g => .ok ⟨String.ofList text.reverse, g.broken, p⟩
  | fuel + 1, p, text, g =>
    let done (g : Gap) (p : Place) : Except YamlFault PlainScalar :=
      .ok ⟨String.ofList text.reverse, g.broken, p⟩
    match p.rest with
    | [] => done g p
    | c :: _ =>
      if isBlank c || isBreak c then do
        let (g, p) ← readGap column (fuel + 1) p g
        if !inFlow && p.column < column then done g p
        else if p.atMarker || p.rest.head? = some '#' then done g p
        else plainChars inFlow column fuel p text g
      else if inFlow && isAmbiguous p.rest then .error .ambiguousColon
      else if endsPlain inFlow p.rest then done g p
      else plainChars inFlow column fuel p.skip (c :: (g.fold ++ text)) {}

/-- **Reads a plain scalar.** -/
def readPlain (inFlow : Bool) (column : Nat) (p : Place) : Except YamlFault PlainScalar :=
  plainChars inFlow column (p.rest.length + 1) p [] {}

/-! ### Quoted scalars -/

/-- The character that a letter after a backslash stands for. -/
def simpleEscape? : Char → Option Char
  | '0' => some '\x00'
  | 'a' => some '\x07'
  | 'b' => some '\x08'
  | 't' => some '\t'
  | '\t' => some '\t'
  | 'n' => some '\n'
  | 'v' => some '\x0b'
  | 'f' => some '\x0c'
  | 'r' => some '\r'
  | 'e' => some '\x1b'
  | ' ' => some ' '
  | '"' => some '"'
  | '/' => some '/'
  | '\\' => some '\\'
  | 'N' => some '\u0085'
  | '_' => some '\u00a0'
  | 'L' => some '\u2028'
  | 'P' => some '\u2029'
  | _ => none

/-- How many hexadecimal digits follow a letter after a backslash. -/
def hexEscape? : Char → Option Nat
  | 'x' => some 2
  | 'u' => some 4
  | 'U' => some 8
  | _ => none

/-- Reads the escape after a backslash. -/
def readEscape (p : Place) : Except YamlFault (Char × Place) :=
  match p.rest with
  | [] => .error .invalidEscape
  | letter :: rest =>
    match simpleEscape? letter, hexEscape? letter with
    | some c, _ => .ok (c, p.skip)
    | none, none => .error .invalidEscape
    | none, some n =>
      match digitsIn? 16 (rest.take n) with
      | none => .error .invalidEscape
      | some code =>
        if rest.length < n || (0xd800 ≤ code && code ≤ 0xdfff) || 0x10ffff < code then
          .error .invalidEscape
        else .ok (Char.ofNat code, p.skipMany (n + 1))

/-- Reads the characters of a quoted scalar up to its end quote. A quote within single quotes is
written twice; backslashes count within double quotes only, where one before a line break takes the
break away. -/
def quotedChars (single : Bool) : Nat → Place → List Char → Except YamlFault (String × Place)
  | 0, _, _ => .error .unclosedQuote
  | fuel + 1, p, text =>
    let afterGap (p : Place) (g : Gap) : Except YamlFault (String × Place) := do
      let (g, p) ← readGap 0 (fuel + 1) p g
      quotedChars single fuel p (g.fold ++ text)
    if p.atMarker then .error .documentMarkInScalar else
    match single, p.rest with
    | _, [] => .error .unclosedQuote
    | true, '\'' :: '\'' :: _ => quotedChars single fuel (p.skipMany 2) ('\'' :: text)
    | true, '\'' :: _ => .ok (String.ofList text.reverse, p.skip)
    | false, '"' :: _ => .ok (String.ofList text.reverse, p.skip)
    | false, '\\' :: _ =>
      match p.skip.lineBreak with
      | (some _, q) => afterGap q { broken := true }
      | (none, q) => do
        let (c, p) ← readEscape q
        quotedChars single fuel p (c :: text)
    | _, c :: _ =>
      if isBlank c || isBreak c then afterGap p {}
      else quotedChars single fuel p.skip (c :: text)

/-- **Reads a quoted scalar**, starting at its first quote. -/
def readQuoted (single : Bool) (p : Place) : Except YamlFault (String × Place) :=
  quotedChars single (p.rest.length + 1) p.skip []

/-! ### Blocks of lines -/

/-- What becomes of the line breaks at the end of a block. -/
inductive Chomp where
  /-- None is kept. -/
  | strip
  /-- The first is kept. -/
  | clip
  /-- All are kept. -/
  | keep
deriving DecidableEq, Repr

/-- The sign that says what becomes of the last line breaks. -/
def chompSign? : Char → Option Chomp
  | '+' => some .keep
  | '-' => some .strip
  | _ => none

/-- Reads what follows the bar or the angle of a block: a sign and a digit, the number of columns
by which its lines are indented, in any order, and a comment. -/
def readHeader (p : Place) : Except YamlFault (Chomp × Option Nat × Place) := do
  let sign (p : Place) : Option Chomp × Place :=
    match p.rest.head?.bind chompSign? with
    | some chomp => (some chomp, p.skip)
    | none => (none, p)
  let digit (p : Place) : Except YamlFault (Option Nat × Place) :=
    match p.rest with
    | c :: _ =>
      if c = '0' then .error .invalidBlockHeader
      else if c.isDigit then .ok (some (digitValue c), p.skip)
      else .ok (none, p)
    | [] => .ok (none, p)
  let (before?, p) := sign p
  let (indent?, p) ← digit p
  let (after?, p) := if before?.isNone && indent?.isSome then sign p else (none, p)
  let p := (p.skipWhile isBlank).skipComment
  if endsLine p.rest then
    return ((before?.or after?).getD .clip, indent?, p.lineBreak.2)
  else throw .invalidBlockHeader

/-- Reads empty lines up to a line with text, and the blanks before that text: the line breaks,
the widest indentation met, and the place reached. -/
def emptyLines (indent? : Option Nat) :
    Nat → Place → Nat → List Char → Except YamlFault (List Char × Nat × Place)
  | 0, p, widest, breaks => .ok (breaks, widest, p)
  | fuel + 1, p, widest, breaks =>
    let spaces := (p.rest.takeWhile (· = ' ')).length
    let taken := match indent? with
      | none => spaces
      | some indent => min spaces (indent - p.column)
    let p := p.skipMany taken
    let widest := max widest p.column
    if p.rest.head? = some '\t' && indent?.all (p.column < ·) then .error .tabAsIndent
    else
      match p.lineBreak with
      | (some b, q) => emptyLines indent? fuel q widest (b :: breaks)
      | (none, _) => .ok (breaks, widest, p)

/-- The text of a block so far: its characters, the line break at its end, the breaks of the empty
lines that follow, and whether its last line starts with a blank. -/
structure Block where
  text : List Char := []
  ending? : Option Char := none
  empty : List Char := []
  blank : Bool := false
deriving Inhabited

/-- **Joins a line to the block.** In a folded block a line feed between two lines that start
without blanks becomes a space, or nothing where empty lines follow it. -/
def Block.join (folded : Bool) (b : Block) (line : List Char) : Block :=
  let blank := line.head?.any isBlank
  let joint : List Char :=
    if folded && b.ending? = some '\n' && !b.blank && !blank then
      (if b.empty.isEmpty then [' '] else [])
    else b.ending?.toList
  { text := line.reverse ++ (b.empty ++ (joint ++ b.text)), blank := blank }

/-- The text of a block, with as many of its last line breaks as are kept. -/
def Block.close (chomp : Chomp) (b : Block) : String :=
  String.ofList (match chomp with
    | .strip => b.text
    | .clip => b.ending?.toList ++ b.text
    | .keep => b.empty ++ (b.ending?.toList ++ b.text)).reverse

/-- Reads the lines of a block at its indentation. -/
def blockLines (folded : Bool) (indent : Nat) :
    Nat → Place → Block → Except YamlFault (Block × Place)
  | 0, p, b => .ok (b, p)
  | fuel + 1, p, b =>
    if p.column = indent && !p.rest.isEmpty then do
      let b := b.join folded (p.rest.takeWhile (fun c => !isBreak c))
      let (ending?, p) := p.skipLine.lineBreak
      let (empty, _, p) ← emptyLines (some indent) (p.rest.length + 1) p 0 []
      blockLines folded indent fuel p { b with ending? := ending?, empty := empty }
    else .ok (b, p)

/-- **Reads a block**, starting at its bar or angle. Its lines are indented by as much as its header
says, or as its first line with text is, and reach the column in any case. -/
def readBlock (folded : Bool) (column : Nat) (p : Place) : Except YamlFault (String × Place) := do
  let (chomp, shift?, p) ← readHeader p.skip
  let indent? := shift?.map (fun shift => (column - 1) + shift)
  let (empty, widest, p) ← emptyLines indent? (p.rest.length + 1) p 0 []
  let indent := indent?.getD (max widest (max column 1))
  let (b, p) ← blockLines folded indent (p.rest.length + 1) p { empty := empty }
  return (b.close chomp, p)

end Yaml

end CallChain
