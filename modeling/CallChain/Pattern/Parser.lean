import CallChain.Pattern

/-!
# Reading regular expressions

The grammar of patterns: alternatives, repetition with `*`, `+`, `?` and counts, groups, looks
ahead and behind, classes, escapes, and the flags `i`, `m` and `s`. A text that is no pattern has
no reading.

* `Pattern.parse?`: the pattern of a text.
-/

set_option autoImplicit false

namespace CallChain.Pattern

/-- The flags in force at a place of a pattern. -/
structure Flags where
  ignoreCase : Bool := false
  multiLine : Bool := false
  dotAll : Bool := false

/-- A reading of a part of a pattern: the result and what follows. -/
abbrev Parse (α : Type) := Option (α × List Char)

/-! ### Escapes -/

/-- The value of hexadecimal digits. -/
def hexDigits? (cs : List Char) : Option Nat :=
  let value? (c : Char) : Option Nat :=
    if c.isDigit then some (c.toNat - '0'.toNat)
    else if 'a' ≤ c && c ≤ 'f' then some (c.toNat - 'a'.toNat + 10)
    else if 'A' ≤ c && c ≤ 'F' then some (c.toNat - 'A'.toNat + 10)
    else none
  if cs.isEmpty then none
  else cs.foldl (fun total c =>
    match total, value? c with
    | some n, some d => some (n * 16 + d)
    | _, _ => none) (some 0)

/-- A character by the digits of its code point: a fixed number of them, or any in braces. -/
def codePoint (width : Nat) (cs : List Char) : Parse Char :=
  let digits : Option (List Char × List Char) :=
    match cs with
    | '\x7b' :: rest =>
      match rest.dropWhile (· != '\x7d') with
      | _ :: after => some (rest.takeWhile (· != '\x7d'), after)
      | [] => none
    | _ => if cs.length < width then none else some (cs.take width, cs.drop width)
  match digits with
  | none => none
  | some (ds, rest) =>
    match hexDigits? ds with
    | some n => if n.isValidChar then some (Char.ofNat n, rest) else none
    | none => none

/-- The set that a class letter stands for. -/
def classLetter? : Char → Option CharSet
  | 'd' => some CharSet.digit
  | 'D' => some CharSet.digit.complement
  | 'w' => some CharSet.wordChar
  | 'W' => some CharSet.wordChar.complement
  | 's' => some CharSet.blank
  | 'S' => some CharSet.blank.complement
  | _ => none

/-- The set that a property name stands for; a few general ones are known. -/
def property? (name : String) : Option CharSet :=
  match name with
  | "L" | "Letter" | "Alphabetic" | "alpha" =>
    some ([(0x41, 0x5a), (0x61, 0x7a)] ++ Text.letterRanges)
  | "Lu" | "Uppercase_Letter" | "Uppercase" => some [(0x41, 0x5a)]
  | "Ll" | "Lowercase_Letter" | "Lowercase" => some [(0x61, 0x7a)]
  | "N" | "Nd" | "Number" => some CharSet.digit
  | _ => none

/-- A property by one letter or a name in braces. -/
def propertySet (negated : Bool) (cs : List Char) : Parse CharSet :=
  let named : Option (List Char × List Char) :=
    match cs with
    | '\x7b' :: rest =>
      match rest.dropWhile (· != '\x7d') with
      | _ :: after => some (rest.takeWhile (· != '\x7d'), after)
      | [] => none
    | c :: rest => some ([c], rest)
    | [] => none
  match named with
  | none => none
  | some (name, rest) =>
    match property? (String.ofList name) with
    | some set => some (if negated then set.complement else set, rest)
    | none => none

/-- The single character that an escape stands for; the backslash has been read. -/
def escapedChar (cs : List Char) : Parse Char :=
  match cs with
  | [] => none
  | 'n' :: rest => some ('\n', rest)
  | 't' :: rest => some ('\t', rest)
  | 'r' :: rest => some ('\r', rest)
  | 'f' :: rest => some ('\x0c', rest)
  | 'v' :: rest => some ('\x0b', rest)
  | 'a' :: rest => some ('\x07', rest)
  | 'x' :: rest => codePoint 2 rest
  | 'u' :: rest => codePoint 4 rest
  | 'U' :: rest => codePoint 8 rest
  | 'c' :: letter :: rest =>
    if letter.isAlpha then some (Char.ofNat (letter.toNat % 32), rest) else none
  | c :: rest =>
    if c.isAlphanum || c = '<' || c = '>' || 127 < c.toNat then none else some (c, rest)

/-! ### Classes -/

/-- The sets with names of their own in classes. -/
def namedClass? (name : String) : Option CharSet :=
  match name with
  | "alpha" => some [(0x41, 0x5a), (0x61, 0x7a)]
  | "digit" => some CharSet.digit
  | "alnum" => some [(0x30, 0x39), (0x41, 0x5a), (0x61, 0x7a)]
  | "upper" => some [(0x41, 0x5a)]
  | "lower" => some [(0x61, 0x7a)]
  | "space" => some [(0x09, 0x0d), (0x20, 0x20)]
  | "blank" => some [(0x09, 0x09), (0x20, 0x20)]
  | "punct" => some [(0x21, 0x2f), (0x3a, 0x40), (0x5b, 0x60), (0x7b, 0x7e)]
  | "word" => some CharSet.wordChar
  | "xdigit" => some [(0x30, 0x39), (0x41, 0x46), (0x61, 0x66)]
  | "cntrl" => some [(0x00, 0x1f), (0x7f, 0x7f)]
  | "graph" => some [(0x21, 0x7e)]
  | "print" => some [(0x20, 0x7e)]
  | "ascii" => some [(0x00, 0x7f)]
  | _ => none

/-- A class with a name of its own, `[:alpha:]` or `[:^alpha:]`; its first bracket has been
read. -/
def namedClass (cs : List Char) : Parse CharSet :=
  match cs with
  | ':' :: rest =>
    let (negated, rest) : Bool × List Char :=
      match rest with
      | '^' :: more => (true, more)
      | _ => (false, rest)
    let name := rest.takeWhile Char.isAlpha
    match rest.dropWhile Char.isAlpha with
    | ':' :: ']' :: after =>
      (namedClass? (String.ofList name)).map
        (fun set => (if negated then set.complement else set, after))
    | _ => none
  | _ => none

/-- One member of a class: a set, or a character that may start a range. -/
def classMember (cs : List Char) : Parse (CharSet ⊕ Char) :=
  match cs with
  | [] => none
  | '\\' :: 'p' :: rest => (propertySet false rest).map (fun (s, r) => (.inl s, r))
  | '\\' :: 'P' :: rest => (propertySet true rest).map (fun (s, r) => (.inl s, r))
  | '\\' :: 'b' :: rest => some (.inr '\x08', rest)
  | '\\' :: c :: rest =>
    match classLetter? c with
    | some set => some (.inl set, rest)
    | none => (escapedChar (c :: rest)).map (fun (ch, r) => (.inr ch, r))
  | c :: rest => some (.inr c, rest)

/-- Reads the members of a class up to its end; `first` says that none has been read, and then a
closing bracket is a member. -/
def classItems : Nat → Bool → CharSet → List Char → Parse CharSet
  | 0, _, _, _ => none
  | fuel + 1, first, set, cs =>
    match cs with
    | [] => none
    | ']' :: rest => if first then ranged fuel set cs else some (set, rest)
    | '[' :: rest =>
      match namedClass rest with
      | some (named, after) => classItems fuel false (set ++ named) after
      | none =>
        let (negated, inner) : Bool × List Char :=
          match rest with
          | '^' :: more => (true, more)
          | _ => (false, rest)
        match classItems fuel true [] inner with
        | some (nested, after) =>
          classItems fuel false (set ++ (if negated then nested.complement else nested)) after
        | none => none
    | '&' :: '&' :: rest =>
      match classItems fuel true [] rest with
      | some (other, after) => some (set.meet other, after)
      | none => none
    | _ => ranged fuel set cs
where
  /-- Reads one member, or a range from it. -/
  ranged : Nat → CharSet → List Char → Parse CharSet
    | 0, _, _ => none
    | fuel + 1, set, cs =>
      match classMember cs with
      | none => none
      | some (.inl named, rest) => classItems fuel false (set ++ named) rest
      | some (.inr low, rest) =>
        match rest with
        | '-' :: ']' :: _ => classItems fuel false (set ++ CharSet.single low) rest
        | '-' :: more =>
          match classMember more with
          | some (.inr high, after) =>
            if low.toNat ≤ high.toNat then
              classItems fuel false (set ++ [(low.toNat, high.toNat)]) after
            else none
          | _ => none
        | _ => classItems fuel false (set ++ CharSet.single low) rest

/-- Reads a class; its first bracket has been read. -/
def charClass (cs : List Char) : Parse CharSet :=
  let (negated, rest) : Bool × List Char :=
    match cs with
    | '^' :: more => (true, more)
    | _ => (false, cs)
  (classItems (4 * cs.length + 4) true [] rest).map
    (fun (set, after) => (if negated then set.complement else set, after))

/-! ### Repetition -/

/-- Whether a quantifier may follow: places without a character cannot be repeated. -/
def repeatable : Pattern → Bool
  | .empty | .start _ | .stop _ | .boundary _ | .look _ _ _ => false
  | _ => true

/-- The number at the start of a text. -/
def number (cs : List Char) : Option Nat × List Char :=
  let ds := cs.takeWhile Char.isDigit
  if ds.isEmpty then (none, cs)
  else (some (ds.foldl (fun n d => n * 10 + (d.toNat - '0'.toNat)) 0), cs.dropWhile Char.isDigit)

/-- The bounds of a count; its brace has been read. -/
def counts (cs : List Char) : Parse (Nat × Option Nat) :=
  match number cs with
  | (some low, '\x7d' :: rest) => some ((low, some low), rest)
  | (some low, ',' :: more) =>
    match number more with
    | (none, '\x7d' :: rest) => some ((low, none), rest)
    | (some high, '\x7d' :: rest) => if low ≤ high then some ((low, some high), rest) else none
    | _ => none
  | _ => none

/-- The bounds of a quantifier; a text without one has none, a bad count has no reading. -/
def quantifier (cs : List Char) : Option (Option (Nat × Option Nat) × List Char) :=
  match cs with
  | '*' :: rest => some (some (0, none), rest)
  | '+' :: rest => some (some (1, none), rest)
  | '?' :: rest => some (some (0, some 1), rest)
  | '\x7b' :: rest => (counts rest).map (fun (b, r) => (some b, r))
  | _ => some (none, cs)

/-! ### Expressions -/

/-- Reads the letters of flags up to a colon or a closing bracket. -/
def flagLetters : Flags → Bool → List Char → Parse Flags
  | flags, _, ':' :: rest => some (flags, ':' :: rest)
  | flags, _, ')' :: rest => some (flags, ')' :: rest)
  | flags, on, c :: rest =>
    match c with
    | '-' => if on then flagLetters flags false rest else none
    | 'i' => flagLetters { flags with ignoreCase := on } on rest
    | 'm' => flagLetters { flags with multiLine := on } on rest
    | 's' => flagLetters { flags with dotAll := on } on rest
    | 'u' => flagLetters flags on rest
    | _ => none
  | _, _, [] => none

/-- A pattern for one character of a set. -/
def charIn (flags : Flags) (set : CharSet) : Pattern :=
  .char (if flags.ignoreCase then set.ignoringCase else set)

/-- An escape outside of classes; the backslash has been read. -/
def escape (flags : Flags) (cs : List Char) : Parse Pattern :=
  match cs with
  | [] => none
  | 'b' :: rest => some (.boundary false, rest)
  | 'B' :: rest => some (.boundary true, rest)
  | 'A' :: rest => some (.start false, rest)
  | 'z' :: rest => some (.stop false, rest)
  | 'p' :: rest => (propertySet false rest).map (fun (s, r) => (charIn flags s, r))
  | 'P' :: rest => (propertySet true rest).map (fun (s, r) => (charIn flags s, r))
  | c :: rest =>
    match classLetter? c with
    | some set => some (.char set, rest)
    | none => (escapedChar cs).map (fun (ch, r) => (charIn flags (CharSet.single ch), r))

/-- What a group turns out to be by its first characters. -/
inductive GroupKind where
  | plain (flags : Flags)
  | look (ahead negated : Bool)
  /-- Flags for the rest of the enclosing group. -/
  | setFlags (flags : Flags)

/-- The kind of a group; its bracket has been read. -/
def groupKind (flags : Flags) (cs : List Char) : Parse GroupKind :=
  let named (rest : List Char) : Parse GroupKind :=
    match rest.dropWhile (fun c => c.isAlphanum || c = '_') with
    | '>' :: after => if (rest.head?).any (fun c => c.isAlpha || c = '_') then
        some (.plain flags, after) else none
    | _ => none
  match cs with
  | '?' :: ':' :: rest => some (.plain flags, rest)
  | '?' :: '=' :: rest => some (.look true false, rest)
  | '?' :: '!' :: rest => some (.look true true, rest)
  | '?' :: '<' :: '=' :: rest => some (.look false false, rest)
  | '?' :: '<' :: '!' :: rest => some (.look false true, rest)
  | '?' :: 'P' :: '<' :: rest => named rest
  | '?' :: '<' :: rest => named rest
  | '?' :: rest =>
    match flagLetters flags true rest with
    | some (changed, ':' :: after) => some (.plain changed, after)
    | some (changed, ')' :: after) => some (.setFlags changed, after)
    | _ => none
  | _ => some (.plain flags, cs)

mutual

/-- Reads alternatives. -/
def alternatives : Nat → Flags → List Char → Parse Pattern
  | 0, _, _ => none
  | fuel + 1, flags, cs =>
    match sequence fuel flags cs with
    | none => none
    | some (left, '|' :: rest) =>
      (alternatives fuel flags rest).map (fun (right, after) => (.alt left right, after))
    | some (only, rest) => some (only, rest)

/-- Reads pieces up to an alternative or the end of a group. -/
def sequence : Nat → Flags → List Char → Parse Pattern
  | 0, _, _ => none
  | fuel + 1, flags, cs =>
    match cs with
    | [] => some (.empty, [])
    | '|' :: _ => some (.empty, cs)
    | ')' :: _ => some (.empty, cs)
    | '(' :: inside =>
      match groupKind flags inside with
      | none => none
      | some (.setFlags changed, rest) => sequence fuel changed rest
      | some (.plain inner, rest) =>
        match alternatives fuel inner rest with
        | some (body, ')' :: after) => repeated fuel flags (.seq .empty body) after
        | _ => none
      | some (.look ahead negated, rest) =>
        match alternatives fuel flags rest with
        | some (body, ')' :: after) => repeated fuel flags (.look ahead negated body) after
        | _ => none
    | '[' :: inside =>
      match charClass inside with
      | none => none
      | some (set, rest) => repeated fuel flags (charIn flags set) rest
    | '\\' :: inside =>
      match escape flags inside with
      | none => none
      | some (piece, rest) => repeated fuel flags piece rest
    | '^' :: rest => repeated fuel flags (.start flags.multiLine) rest
    | '$' :: rest => repeated fuel flags (.stop flags.multiLine) rest
    | '.' :: rest =>
      repeated fuel flags
        (.char (if flags.dotAll then [(0, CharSet.top)]
          else (CharSet.single '\n').complement)) rest
    | c :: rest =>
      if c = '*' || c = '+' || c = '?' || c = '\x7b' then none
      else repeated fuel flags (charIn flags (CharSet.single c)) rest

/-- Reads the quantifier of a piece, if it has one, and the pieces after it. -/
def repeated : Nat → Flags → Pattern → List Char → Parse Pattern
  | 0, _, _, _ => none
  | fuel + 1, flags, piece, cs =>
    match quantifier cs with
    | none => none
    | some (none, rest) =>
      (sequence fuel flags rest).map (fun (more, after) => (.seq piece more, after))
    | some (some (low, high), rest) =>
      if !repeatable piece then none
      else
        let rest : List Char :=
          match rest with
          | '?' :: more => more
          | _ => rest
        (sequence fuel flags rest).map
          (fun (more, after) => (.seq (.rep piece low high) more, after))

end

/-- **The pattern of a text**, unless it is none. -/
def parse? (text : String) : Option Pattern :=
  let cs := text.toList
  match alternatives (3 * cs.length + 3) {} cs with
  | some (p, []) => some p
  | _ => none

end CallChain.Pattern
