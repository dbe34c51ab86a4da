import CallChain.Text.Letters

/-!
# Regular expressions

A pattern is searched for in a text. What a pattern means is the set of places where a match that
starts at a given place may end; greedy and lazy repetition mean the same set, and whether there is
a match at all depends on nothing else.

* `CharSet`: a set of characters as ranges of code points.
* `Pattern`: the expressions.
* `Pattern.ends`: the places where a match may end.
* `Pattern.occursIn`: whether a text contains a match.
-/

set_option autoImplicit false

namespace CallChain

/-- **A set of characters**, as ranges of code points. -/
abbrev CharSet := List (Nat × Nat)

namespace CharSet

/-- Whether a character is in a set. -/
def has (set : CharSet) (c : Char) : Bool := set.any (fun r => r.1 ≤ c.toNat && c.toNat ≤ r.2)

/-- The greatest code point. -/
def top : Nat := 0x10ffff

/-- Puts a range into a list of ranges that is ordered by first code points. -/
def place (r : Nat × Nat) : CharSet → CharSet
  | [] => [r]
  | s :: rest => if r.1 ≤ s.1 then r :: s :: rest else s :: place r rest

/-- The gaps from a code point on between ranges that are ordered by first code points. -/
def gaps : Nat → CharSet → CharSet
  | start, [] => if start ≤ top then [(start, top)] else []
  | start, (a, b) :: rest =>
    if start < a then (start, a - 1) :: gaps (max start (b + 1)) rest
    else gaps (max start (b + 1)) rest

/-- All other characters. -/
def complement (set : CharSet) : CharSet := gaps 0 (set.foldr place [])

/-- The characters of both sets. -/
def meet (a b : CharSet) : CharSet :=
  a.flatMap (fun r => b.filterMap (fun s =>
    let low := max r.1 s.1
    let high := min r.2 s.2
    if low ≤ high then some (low, high) else none))

/-- One character. -/
def single (c : Char) : CharSet := [(c.toNat, c.toNat)]

/-- The digits. -/
def digit : CharSet := [(0x30, 0x39)]

/-- The characters of a word. -/
def wordChar : CharSet := [(0x30, 0x39), (0x41, 0x5a), (0x5f, 0x5f), (0x61, 0x7a)]

/-- The blanks of a pattern. -/
def blank : CharSet :=
  [(0x09, 0x0d), (0x20, 0x20), (0xa0, 0xa0), (0x2003, 0x2003), (0x2029, 0x2029),
    (0xfeff, 0xfeff)]

/-- A set together with the other case of its ASCII letters. -/
def ignoringCase (set : CharSet) : CharSet :=
  let shifted (low high : Nat) (d : Int) : CharSet :=
    (meet set [(low, high)]).map (fun r => (((r.1 : Int) + d).toNat, ((r.2 : Int) + d).toNat))
  set ++ shifted 0x41 0x5a 32 ++ shifted 0x61 0x7a (-32)

end CharSet

/-- **A regular expression.** -/
inductive Pattern where
  | empty
  /-- One character of a set. -/
  | char (set : CharSet)
  /-- The start of the text, or of a line. -/
  | start (ofLine : Bool)
  /-- The end of the text, or of a line. -/
  | stop (ofLine : Bool)
  /-- A place between a word character and another one, or no such place. -/
  | boundary (negated : Bool)
  | seq (first second : Pattern)
  | alt (left right : Pattern)
  /-- So many times at least, and so many at most if there is a bound. -/
  | rep (body : Pattern) (least : Nat) (most : Option Nat)
  /-- A look at what follows or precedes, which must match or must not. -/
  | look (ahead negated : Bool) (body : Pattern)
deriving Inhabited

namespace Pattern

/-- Places without repetition, in order of their first mention. -/
def distinct (places : List Nat) : List Nat :=
  places.foldl (fun seen i => if seen.contains i then seen else seen ++ [i]) []

/-- The places after exactly so many rounds. -/
def rounds (step : Nat → List Nat) : Nat → List Nat → List Nat
  | 0, places => places
  | n + 1, places => rounds step n (distinct (places.flatMap step))

/-- The places after at most so many rounds; a round that finds nothing new is the last. -/
def closure (step : Nat → List Nat) : Nat → List Nat → List Nat → List Nat
  | 0, seen, _ => seen
  | n + 1, seen, fresh =>
    let next := (distinct (fresh.flatMap step)).filter (fun i => !seen.contains i)
    if next.isEmpty then seen else closure step n (seen ++ next) next

/-- Whether a place of a text lies before a word character. -/
def wordAt (text : Array Char) (i : Nat) : Bool :=
  match text[i]? with
  | some c => Text.isLetterOrDigit c || c == '_'
  | none => false

/-- Whether a place lies behind a word character. -/
def wordBefore (text : Array Char) (i : Nat) : Bool :=
  match i with
  | 0 => false
  | j + 1 => wordAt text j

/-- Whether a place starts the text, or a line. -/
def isStart (text : Array Char) (ofLine : Bool) (i : Nat) : Bool :=
  i == 0 || (ofLine && text[i - 1]? == some '\n')

/-- Whether a place ends the text, or a line. -/
def isStop (text : Array Char) (ofLine : Bool) (i : Nat) : Bool :=
  i == text.size || (ofLine && text[i]? == some '\n')

/-- **The places where a match that starts at `i` may end.** -/
def ends (text : Array Char) : Pattern → Nat → List Nat
  | .empty, i => [i]
  | .char set, i =>
    match text[i]? with
    | some c => if set.has c then [i + 1] else []
    | none => []
  | .start ofLine, i => if isStart text ofLine i then [i] else []
  | .stop ofLine, i => if isStop text ofLine i then [i] else []
  | .boundary negated, i => if (wordAt text i != wordBefore text i) != negated then [i] else []
  | .seq a b, i => distinct ((ends text a i).flatMap (ends text b))
  | .alt a b, i => distinct (ends text a i ++ ends text b i)
  | .rep body least most, i =>
    let step := ends text body
    let first := rounds step least [i]
    match most with
    | none => closure step (text.size + 1) first first
    | some m => closure step (min (m - least) (text.size + 1)) first first
  | .look ahead negated body, i =>
    let found :=
      if ahead then !(ends text body i).isEmpty
      else (List.range (i + 1)).any (fun j => (ends text body j).contains i)
    if found != negated then [i] else []

/-- **Whether a text contains a match.** -/
def occursIn (p : Pattern) (text : String) : Bool :=
  let chars := text.toList.toArray
  (List.range (chars.size + 1)).any (fun i => !(ends chars p i).isEmpty)

end Pattern

end CallChain
