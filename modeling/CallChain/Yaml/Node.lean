import CallChain.Json.Decoder
import CallChain.Yaml.Token

/-!
# Nodes of YAML texts

The tokens of a text become a `Source`: plain scalars stay open, quoted ones are strings, tags stay
beside their nodes, and an alias stands for what its anchor names.

* `Yaml.Node`: a source with how deep it nests and how many aliases it takes to unfold it.
* `Yaml.Composing`: the tokens to come and the anchors met.
* `Yaml.source`: the source of a text of one document, or why there is none.
* `decodeYaml`: decodes a text.
-/

set_option autoImplicit false

namespace CallChain

namespace Yaml

/-! ### Nodes -/

/-- **A source** with how many containers nest in it and how many aliases are met on a walk through
all of it. -/
structure Node where
  source : Source
  height : Nat := 0
  aliases : Nat := 0
deriving Inhabited

/-- How deep containers may nest. -/
def depthLimit : Nat := 128

/-- How many aliases there may be for each part of a text. -/
def aliasLimit : Nat := 100

namespace Node

/-- A node that is not there. -/
def empty : Node := { source := .plain "" }

/-- A node that nothing can be decoded from. -/
def broken (fault : YamlFault) : Node := { source := .broken {} ⟨.yaml fault, {}⟩ }

/-- A scalar. -/
def scalar (isPlain : Bool) (text : String) : Node :=
  { source := if isPlain then .plain text else .scalar (.str text) {} }

/-- The text of a scalar. -/
def text? (n : Node) : Option String :=
  match n.source.bare with
  | .plain text => some text
  | .scalar (.str text) _ => some text
  | _ => none

/-- A list. -/
def list (items : List Node) : Node where
  source := .list {} (items.map (fun n => (n.source, {}))) (.ok {})
  height := items.foldl (fun h n => max h n.height) 0 + 1
  aliases := items.foldl (fun n item => n + item.aliases) 0

/-- A map; its keys must be scalars. -/
def map (members : List (Node × Node)) : Node :=
  let keys? := members.mapM (fun (k, v) => k.text?.map (fun text => (MemberName.mk text {}, v)))
  { source := match keys? with
      | some keyed => .record {} (keyed.map (fun (k, v) => (k, v.source, {}))) (.ok {})
      | none => .broken {} ⟨.yaml .unusableKey, {}⟩
    height := members.foldl (fun h (_, v) => max h v.height) 0 + 1
    aliases := members.foldl (fun n (k, v) => n + k.aliases + v.aliases) 0 }

/-- A node with a tag. -/
def tagged (tag? : Option NodeTag) (n : Node) : Node :=
  match tag? with
  | some tag => { n with source := .tagged tag n.source }
  | none => n

end Node

/-! ### Tags -/

/-- The handles that need no directive. -/
def standardHandles : List (String × String) := [("!", "!"), ("!!", "tag:yaml.org,2002:")]

/-- What a tag says, once its handle is replaced by what it stands for. An exclamation mark alone
says nothing about a scalar. -/
def NodeTag.ofText (isScalar : Bool) (text : String) : Option NodeTag :=
  match text with
  | "!" => if isScalar then none else some (.own "!")
  | "tag:yaml.org,2002:null" => some .null
  | "tag:yaml.org,2002:bool" => some .bool
  | "tag:yaml.org,2002:int" => some .int
  | "tag:yaml.org,2002:float" => some .float
  | text =>
    match text.toList with
    | '!' :: name => some (.own (String.ofList name))
    | _ => some .other

/-! ### Composing -/

/-- **The tokens to come and what has been declared**: handles of tags, and anchors, of which one
inside its own node has no node yet. The latest stands first. -/
structure Composing where
  tokens : List Token
  handles : List (String × String) := []
  anchors : List (String × Option Node) := []
  /-- How many scalars, aliases, and starts and ends of containers have been met. -/
  parts : Nat := 0
deriving Inhabited

namespace Composing

/-- Moves past so many tokens. -/
def drop (s : Composing) (n : Nat) : Composing := { s with tokens := s.tokens.drop n }

/-- Counts parts. -/
def met (s : Composing) (n : Nat) : Composing := { s with parts := s.parts + n }

/-- Notes an anchor whose node is still to be read. -/
def openAnchor (s : Composing) : Option String → Composing
  | some name => { s with anchors := (name, none) :: s.anchors }
  | none => s

/-- Gives the latest anchor of a name that has no node its node. -/
def settle (name : String) (n : Node) :
    List (String × Option Node) → List (String × Option Node)
  | [] => []
  | (other, none) :: rest =>
    if other = name then (other, some n) :: rest else (other, none) :: settle name n rest
  | known :: rest => known :: settle name n rest

/-- Notes the node of an anchor. -/
def closeAnchor (s : Composing) (name? : Option String) (n : Node) : Composing :=
  match name? with
  | some name => { s with anchors := settle name n s.anchors }
  | none => s

/-- **What an alias stands for** at a depth. -/
def resolve (s : Composing) (depth : Nat) (name : String) : Except YamlFault Node :=
  match s.anchors.lookup name with
  | none => .error .unknownAnchor
  | some none => .ok (.broken .selfReference)
  | some (some n) =>
    if depth + n.height > depthLimit then .ok (.broken .tooDeep)
    else .ok { n with aliases := n.aliases + 1 }

/-- What a tag says. -/
def tagOf (s : Composing) (isScalar : Bool) : Option Tag → Except YamlFault (Option NodeTag)
  | none => .ok none
  | some tag =>
    if tag.handle = "" then .ok (NodeTag.ofText isScalar tag.suffix)
    else
      match (s.handles ++ standardHandles).lookup tag.handle with
      | some stem => .ok (NodeTag.ofText isScalar (stem ++ tag.suffix))
      | none => .error .invalidTag

/-- Reads the anchor and the tag before a node, in any order. -/
def properties (s : Composing) : Option String × Option Tag × Composing :=
  match s.tokens with
  | .anchor name :: .tag tag :: _ => (some name, some tag, s.drop 2)
  | .tag tag :: .anchor name :: _ => (some name, some tag, s.drop 2)
  | .anchor name :: _ => (some name, none, s.drop 1)
  | .tag tag :: _ => (none, some tag, s.drop 1)
  | _ => (none, none, s)

/-- Whether the value of a key is missing in a block. -/
def lacksMember : List Token → Bool
  | .key :: _ => true
  | .value :: _ => true
  | .blockEnd :: _ => true
  | _ => false

/-- Whether an item of a block is missing. -/
def lacksEntry : List Token → Bool
  | .entry :: _ => true
  | .blockEnd :: _ => true
  | _ => false

/-- Whether what belongs into brackets is missing. -/
def lacksItem (close : Token) : List Token → Bool
  | [] => false
  | t :: _ => t = .comma || t = close

/-- Moves past the comma before an item that is not the first. -/
def separator (first : Bool) (s : Composing) : Except YamlFault Composing :=
  if first then .ok s
  else if s.tokens.head? = some .comma then .ok (s.drop 1)
  else .error .missingSeparator

/-- A node that is missing. -/
def missing (s : Composing) : Node × Composing := (.empty, s.met 1)

mutual

/-- **Reads a node.** Blocks count as nodes where `block` says so, and where `indentless` does, so
do items at the column of the key before them. -/
def node : Nat → Nat → Bool → Bool → Composing → Except YamlFault (Node × Composing)
  | 0, _, _, _, _ => .error .missingContent
  | fuel + 1, depth, block, indentless, s =>
    match s.tokens with
    | .alias name :: _ => do
      let n ← s.resolve depth name
      return (n, (s.drop 1).met 1)
    | _ => do
      let (anchor?, written?, s) := s.properties
      let tag? ← s.tagOf false written?
      let scalarTag? ← s.tagOf true written?
      let leaf (n : Node) (s : Composing) : Node × Composing :=
        let n := n.tagged scalarTag?
        (n, ((s.openAnchor anchor?).closeAnchor anchor? n).met 1)
      let container (n : Node) (s : Composing) : Node × Composing :=
        let n := (if depth < depthLimit then n else .broken .tooDeep).tagged tag?
        (n, (s.closeAnchor anchor? n).met 2)
      let inner := s.openAnchor anchor?
      match s.tokens, block, indentless with
      | .scalar isPlain text :: _, _, _ => return leaf (.scalar isPlain text) (s.drop 1)
      | .flowList :: _, _, _ =>
        let (items, s) ← flowItems fuel (depth + 1) true (inner.drop 1)
        return container (.list items) s
      | .flowMap :: _, _, _ =>
        let (members, s) ← flowMembers fuel (depth + 1) true (inner.drop 1)
        return container (.map members) s
      | .entry :: _, _, true =>
        let (items, s) ← looseEntries fuel (depth + 1) inner
        return container (.list items) s
      | .blockList :: _, true, _ =>
        let (items, s) ← blockEntries fuel (depth + 1) (inner.drop 1)
        return container (.list items) s
      | .blockMap :: _, true, _ =>
        let (members, s) ← blockMembers fuel (depth + 1) (inner.drop 1)
        return container (.map members) s
      | _, _, _ =>
        if anchor?.isSome || written?.isSome then return leaf .empty s
        else throw .missingContent

/-- Reads the items of a block up to its end. -/
def blockEntries : Nat → Nat → Composing → Except YamlFault (List Node × Composing)
  | 0, _, _ => .error .missingContent
  | fuel + 1, depth, s =>
    match s.tokens with
    | .entry :: rest => do
      let s := s.drop 1
      let (item, s) ← if lacksEntry rest then pure s.missing else node fuel depth true false s
      let (items, s) ← blockEntries fuel depth s
      return (item :: items, s)
    | .blockEnd :: _ => return ([], s.drop 1)
    | _ => throw .missingEntry

/-- Reads the items at the column of the key before them. -/
def looseEntries : Nat → Nat → Composing → Except YamlFault (List Node × Composing)
  | 0, _, _ => .error .missingContent
  | fuel + 1, depth, s =>
    match s.tokens with
    | .entry :: rest => do
      let s := s.drop 1
      let (item, s) ←
        if lacksEntry rest || lacksMember rest then pure s.missing
        else node fuel depth true false s
      let (items, s) ← looseEntries fuel depth s
      return (item :: items, s)
    | _ => return ([], s)

/-- Reads a key or a value of a block. -/
def blockMember : Nat → Nat → Composing → Except YamlFault (Node × Composing)
  | 0, _, _ => .error .missingContent
  | fuel + 1, depth, s =>
    if lacksMember s.tokens then return s.missing else node fuel depth true true s

/-- Reads the members of a block up to its end. -/
def blockMembers : Nat → Nat → Composing → Except YamlFault (List (Node × Node) × Composing)
  | 0, _, _ => .error .missingContent
  | fuel + 1, depth, s =>
    match s.tokens with
    | .key :: _ => do
      let (key, s) ← blockMember fuel depth (s.drop 1)
      let (value, s) ←
        if s.tokens.head? = some .value then blockMember fuel depth (s.drop 1)
        else pure s.missing
      let (members, s) ← blockMembers fuel depth s
      return ((key, value) :: members, s)
    | .blockEnd :: _ => return ([], s.drop 1)
    | _ => throw .missingKey

/-- Reads the items within brackets up to the closing one. A member may stand for an item; it is a
map of its own. -/
def flowItems : Nat → Nat → Bool → Composing → Except YamlFault (List Node × Composing)
  | 0, _, _, _ => .error .missingContent
  | fuel + 1, depth, first, s =>
    match s.tokens with
    | .flowListEnd :: _ => return ([], s.drop 1)
    | _ => do
      let s ← s.separator first
      match s.tokens with
      | .flowListEnd :: _ => return ([], s.drop 1)
      | .key :: _ =>
        let (item, s) ← flowPair fuel depth (s.drop 1)
        let (items, s) ← flowItems fuel depth false s
        return (item :: items, s)
      | _ =>
        let (item, s) ← node fuel depth false false s
        let (items, s) ← flowItems fuel depth false s
        return (item :: items, s)

/-- Reads the member that stands for an item. Where its key is missing, so is what stands there
instead. -/
def flowPair : Nat → Nat → Composing → Except YamlFault (Node × Composing)
  | 0, _, _ => .error .missingContent
  | fuel + 1, depth, s => do
    let (key, s) ←
      if s.tokens.head? = some .value || lacksItem .flowListEnd s.tokens then
        pure (s.drop 1).missing
      else node fuel (depth + 1) false false s
    let (value, s) ←
      if s.tokens.head? = some .value && !lacksItem .flowListEnd (s.tokens.drop 1) then
        node fuel (depth + 1) false false (s.drop 1)
      else if s.tokens.head? = some .value then pure (s.drop 1).missing
      else pure s.missing
    let n := if depth < depthLimit then Node.map [(key, value)] else .broken .tooDeep
    return (n, s.met 2)

/-- Reads the members within braces up to the closing one. -/
def flowMembers : Nat → Nat → Bool → Composing →
    Except YamlFault (List (Node × Node) × Composing)
  | 0, _, _, _ => .error .missingContent
  | fuel + 1, depth, first, s =>
    match s.tokens with
    | .flowMapEnd :: _ => return ([], s.drop 1)
    | _ => do
      let s ← s.separator first
      match s.tokens with
      | .flowMapEnd :: _ => return ([], s.drop 1)
      | .key :: rest =>
        let s := s.drop 1
        let (key, s) ←
          if rest.head? = some .value || lacksItem .flowMapEnd rest then pure s.missing
          else node fuel depth false false s
        let (value, s) ← flowValue fuel depth s
        let (members, s) ← flowMembers fuel depth false s
        return ((key, value) :: members, s)
      | _ =>
        let (key, s) ← node fuel depth false false s
        let (value, s) := s.missing
        let (members, s) ← flowMembers fuel depth false s
        return ((key, value) :: members, s)

/-- Reads the value of a member within braces. -/
def flowValue : Nat → Nat → Composing → Except YamlFault (Node × Composing)
  | 0, _, _ => .error .missingContent
  | fuel + 1, depth, s =>
    if s.tokens.head? = some .value then
      let s := s.drop 1
      if lacksItem .flowMapEnd s.tokens then return s.missing
      else node fuel depth false false s
    else return s.missing

end

/-! ### Documents -/

/-- Reads the directives before a document. The version must be 1.1 or 1.2, and nothing may be
declared twice. -/
def directives : List Token → Option (Nat × Nat) → List (String × String) →
    Except YamlFault (List (String × String) × List Token)
  | .directive (.version major minor) :: rest, none, handles =>
    if major = 1 && (minor = 1 || minor = 2) then directives rest (some (major, minor)) handles
    else .error .invalidDirective
  | .directive (.version _ _) :: _, some _, _ => .error .invalidDirective
  | .directive (.tag handle stem) :: rest, version?, handles =>
    if (handles.lookup handle).isSome then .error .invalidDirective
    else directives rest version? ((handle, stem) :: handles)
  | rest, _, handles => .ok (handles, rest)

/-- Whether a document has no content. -/
def isBare : List Token → Bool
  | [] => true
  | .directive _ :: _ => true
  | .documentStart :: _ => true
  | .documentEnd :: _ => true
  | _ => false

/-- Reads the content of a document. -/
def content (s : Composing) : Except YamlFault (Node × Composing) :=
  node (2 * s.tokens.length + 2) 0 true false s

/-- **Reads a document**: its content, or directives, a marker and perhaps its content. -/
def document (tokens : List Token) : Except YamlFault (Node × Composing) :=
  match tokens with
  | .directive _ :: _ | .documentStart :: _ => do
    let (handles, rest) ← directives tokens none []
    match rest with
    | .documentStart :: rest =>
      let s : Composing := { tokens := rest, handles := handles }
      if isBare rest then return s.missing else s.content
    | _ => throw .missingDocumentStart
  | _ => content { tokens := tokens }

/-- Whether nothing follows a document but markers of its end. -/
def atEnd (s : Composing) : Except YamlFault Unit :=
  match s.tokens.dropWhile (· = .documentEnd) with
  | [] => .ok ()
  | .documentStart :: _ => .error .secondDocument
  | _ => .error .missingDocumentStart

end Composing

/-- **The source of a text**, which holds one document, or why there is none. A text without any
is an empty scalar. -/
def source (text : String) : Except YamlFault Source := do
  match ← tokens text with
  | [] => return .plain ""
  | ts =>
    let (n, s) ← Composing.document ts
    s.atEnd
    if n.aliases > aliasLimit * s.parts then throw .tooManyAliases else return n.source

end Yaml

/-- **Decodes a YAML text.** -/
def decodeYaml {α : Type} (d : Decoder α) (text : String) : Except DecodeError α :=
  match Yaml.source text with
  | .error fault => .error ⟨.unreadable (.yaml fault), none⟩
  | .ok s => d .yaml s

end CallChain
