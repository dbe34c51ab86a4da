import CallChain.Text.Percent
import CallChain.Yaml.Scalar

/-!
# Tags, anchors and directives of YAML texts

* `Yaml.readName`: the name of an anchor or an alias.
* `Yaml.Tag`, `Yaml.readTag`: a tag, as its handle and the rest of it.
* `Yaml.Directive`, `Yaml.readDirective`: a line that starts with a percent sign.
-/

set_option autoImplicit false

namespace CallChain

namespace Yaml

/-! ### Names -/

/-- Reads the name after the sign of an anchor or an alias. -/
def readName (p : Place) : Except YamlFault (String × Place) :=
  let p := p.skip
  let name := p.rest.takeWhile isWordLetter
  let q := p.skipMany name.length
  let ends := endsWord q.rest ||
    q.rest.head?.any (· ∈ ['?', ':', ',', ']', '\x7d', '%', '@', '\x60'])
  if name.isEmpty || !ends then .error .invalidAnchor else .ok (String.ofList name, q)

/-! ### Tags -/

/-- **A tag**: a handle, which directives may declare, and what follows it. -/
structure Tag where
  handle : String
  suffix : String
deriving DecidableEq, Repr, Inhabited

/-- The characters of the rest of a tag. Commas and square brackets are among them where the tag
stands in angles. -/
def isTagLetter (verbatim : Bool) (c : Char) : Bool :=
  isWordLetter c
    || c ∈ [';', '/', '?', ':', '@', '&', '=', '+', '$', '.', '%', '!', '~', '*', '\'', '(', ')']
    || (verbatim && c ∈ [',', '[', ']'])

/-- The bytes of characters of which some are escaped by a percent sign. -/
def escapedBytes : List Char → Option (List UInt8)
  | [] => some []
  | '%' :: a :: b :: rest =>
    match hexValue? a, hexValue? b with
    | some a, some b => (escapedBytes rest).map ((a * 16 + b).toUInt8 :: ·)
    | _, _ => none
  | '%' :: _ => none
  | c :: rest => (escapedBytes rest).map ((String.singleton c).toUTF8.toList ++ ·)

/-- Reads the rest of a tag; `start` has been read already. -/
def readSuffix (verbatim : Bool) (start : List Char) (p : Place) :
    Except YamlFault (String × Place) :=
  let letters := p.rest.takeWhile (isTagLetter verbatim)
  match (escapedBytes (start ++ letters)).bind (fun bs => String.fromUTF8? ⟨bs.toArray⟩) with
  | some suffix => .ok (suffix, p.skipMany letters.length)
  | none => .error .invalidTag

/-- Reads a handle: an exclamation mark, and perhaps a name and another one. -/
def readHandle (p : Place) : Except YamlFault (List Char × Place) :=
  match p.rest with
  | '!' :: rest =>
    let name := rest.takeWhile isWordLetter
    let q := p.skip.skipMany name.length
    if q.rest.head? = some '!' then .ok ('!' :: name ++ ['!'], q.skip)
    else .ok ('!' :: name, q)
  | _ => .error .invalidTag

/-- **Reads a tag**: `!<suffix>`, `!handle!suffix`, `!suffix`, or an exclamation mark alone. -/
def readTag (inFlow : Bool) (p : Place) : Except YamlFault (Tag × Place) := do
  let (tag, p) ← match p.rest with
    | '!' :: '<' :: _ => do
      let (suffix, q) ← readSuffix true [] (p.skipMany 2)
      if suffix.isEmpty || q.rest.head? ≠ some '>' then throw .invalidTag
      pure (Tag.mk "" suffix, q.skip)
    | _ => do
      let (handle, q) ← readHandle p
      if 1 < handle.length && handle.getLast? = some '!' then
        let (suffix, q) ← readSuffix false [] q
        if suffix.isEmpty then throw .invalidTag
        pure (Tag.mk (String.ofList handle) suffix, q)
      else
        let (suffix, q) ← readSuffix false (handle.drop 1) q
        if suffix.isEmpty then pure (Tag.mk "" "!", q) else pure (Tag.mk "!" suffix, q)
  if (inFlow && p.rest.head? = some ',') || endsWord p.rest then return (tag, p)
  else throw .invalidTag

/-! ### Directives -/

/-- **A directive**: the version of the language, or what a handle stands for. -/
inductive Directive where
  | version (major minor : Nat)
  | tag (handle stem : String)
deriving DecidableEq, Repr, Inhabited

/-- Reads a number of at most nine digits. -/
def readVersionPart (p : Place) : Except YamlFault (Nat × Place) :=
  let digits := p.rest.takeWhile Char.isDigit
  if digits.length > 9 then .error .invalidDirective
  else
    match digitsIn? 10 digits with
    | some n => .ok (n, p.skipMany digits.length)
    | none => .error .invalidDirective

/-- Reads what a directive says. -/
def readDirectiveValue (name : String) (p : Place) : Except YamlFault (Directive × Place) :=
  match name with
  | "YAML" => do
    let (major, p) ← readVersionPart (p.skipWhile isBlank)
    if p.rest.head? ≠ some '.' then throw .invalidDirective
    let (minor, p) ← readVersionPart p.skip
    return (.version major minor, p)
  | "TAG" => do
    let (handle, p) ← readHandle (p.skipWhile isBlank)
    if handle ≠ ['!'] && handle.getLast? ≠ some '!' then throw .invalidDirective
    if !p.rest.head?.any isBlank then throw .invalidDirective
    let (stem, p) ← readSuffix true [] (p.skipWhile isBlank)
    if stem.isEmpty || !endsWord p.rest then throw .invalidDirective
    return (.tag (String.ofList handle) stem, p)
  | _ => .error .invalidDirective

/-- **Reads a directive**, up to the end of its line. -/
def readDirective (p : Place) : Except YamlFault (Directive × Place) := do
  let p := p.skip
  let name := p.rest.takeWhile isWordLetter
  let p := p.skipMany name.length
  if name.isEmpty || !endsWord p.rest then throw .invalidDirective
  let (directive, p) ← readDirectiveValue (String.ofList name) p
  let p := (p.skipWhile isBlank).skipComment
  if endsLine p.rest then return (directive, p.lineBreak.2) else throw .invalidDirective

end Yaml

end CallChain
