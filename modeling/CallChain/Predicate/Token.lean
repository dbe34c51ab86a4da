import CallChain.Number.Reading
import CallChain.Number.Arithmetic
import CallChain.Predicate.Value
import CallChain.Text.Blank

/-!
# Tokens of predicates

A text is first cut into fragments: strings, parentheses, signs of one character and literals,
which take up all other characters. Then fragments are joined to tokens, such as two `&` to one
`&&`, and literals are read as numbers, truth values or names.

* `Fragment`, `fragments`: the first cut.
* `Token`, `tokens`: the tokens of a text.
-/

set_option autoImplicit false

namespace CallChain.Predicate

/-- **A token.** All ways to assign are one: none of them can succeed. -/
inductive Token where
  | plus
  | minus
  | star
  | slash
  | percent
  | hat
  | equal
  | unequal
  | greater
  | less
  | atLeast
  | atMost
  | both
  | either
  | negate
  | opening
  | closing
  | comma
  | semicolon
  | assign
  | identifier (name : String)
  | float (x : Float)
  | int (i : Int)
  | bool (b : Bool)
  | string (text : String)

/-! ### Fragments -/

/-- **A fragment**: a string, a parenthesis or separator, a sign, or a run of other characters.
All blanks are the sign `' '`. -/
inductive Fragment where
  | string (text : String)
  | separator (c : Char)
  | sign (c : Char)
  | literal (cs : List Char)

/-- How a message shows a fragment. -/
def Fragment.shown : Fragment → String
  | .string text => Text.escaped text
  | .separator c => String.singleton c
  | .sign c => String.singleton c
  | .literal cs => String.ofList cs

/-- Adds a character to the fragments before it, the last of which comes first. -/
def push (c : Char) (before : List Fragment) : List Fragment :=
  if c ∈ ['(', ')', ',', ';'] then .separator c :: before
  else if c ∈ ['+', '-', '*', '/', '%', '^', '=', '!', '>', '<', '&', '|'] then .sign c :: before
  else if Text.isBlank c then .sign ' ' :: before
  else
    match before with
    | .literal cs :: rest => .literal (cs ++ [c]) :: rest
    | _ => .literal [c] :: before

/-- Where in a text the reader is. -/
inductive Zone where
  | outside
  /-- After a slash that may start a comment. -/
  | slash
  | lineComment
  /-- In a comment with an end of its own; the flag tells whether a star came last. -/
  | blockComment (star : Bool)
  /-- In a string; the flag tells whether a backslash came last. -/
  | inString (text : List Char) (escape : Bool)

/-- Cuts the rest of a text. -/
def fragmentsFrom : Zone → List Fragment → List Char → Except Fault (List Fragment)
  | .outside, before, [] => .ok before.reverse
  | .slash, before, [] => .ok (Fragment.sign '/' :: before).reverse
  | .lineComment, before, [] => .ok before.reverse
  | .blockComment _, _, [] => .error .unclosedComment
  | .inString _ true, _, [] => .error (.illegalEscape "\\")
  | .inString _ false, _, [] => .error .unmatchedQuote
  | .outside, before, c :: rest =>
    if c = '"' then fragmentsFrom (.inString [] false) before rest
    else if c = '/' then fragmentsFrom .slash before rest
    else fragmentsFrom .outside (push c before) rest
  | .slash, before, c :: rest =>
    if c = '/' then fragmentsFrom .lineComment before rest
    else if c = '*' then fragmentsFrom (.blockComment false) before rest
    else if c = '"' then fragmentsFrom (.inString [] false) (.sign '/' :: before) rest
    else fragmentsFrom .outside (push c (.sign '/' :: before)) rest
  | .lineComment, before, c :: rest =>
    fragmentsFrom (if c = '\n' then .outside else .lineComment) before rest
  | .blockComment star, before, c :: rest =>
    if star && c = '/' then fragmentsFrom .outside before rest
    else fragmentsFrom (.blockComment (c = '*')) before rest
  | .inString text true, before, c :: rest =>
    if c = '"' || c = '\\' then fragmentsFrom (.inString (text ++ [c]) false) before rest
    else .error (.illegalEscape (String.ofList ['\\', c]))
  | .inString text false, before, c :: rest =>
    if c = '"' then fragmentsFrom .outside (.string (String.ofList text) :: before) rest
    else if c = '\\' then fragmentsFrom (.inString text true) before rest
    else fragmentsFrom (.inString (text ++ [c]) false) before rest

/-- **The fragments of a text.** Comments leave nothing behind. -/
def fragments (text : String) : Except Fault (List Fragment) :=
  fragmentsFrom .outside [] text.toList

/-! ### Literals -/

/-- A literal as a whole number of sixty-four bits, in base ten, sixteen, two or eight. -/
def literalInt? (cs : List Char) : Option Int :=
  let magnitude? : Option Nat :=
    match cs with
    | '0' :: 'x' :: rest => digitsIn? 16 rest
    | '0' :: 'b' :: rest => digitsIn? 2 rest
    | '0' :: 'o' :: rest => digitsIn? 8 rest
    | cs => digitsIn? 10 cs
  magnitude?.bind (fun n => withinWord n)

/-- A literal as a machine number; infinity and NaN have names. -/
def literalFloat? (cs : List Char) : Option Float :=
  let name := String.ofList (cs.map Char.toLower)
  if name = "inf" || name = "infinity" then some (1 / 0)
  else if name = "nan" then some (0 / 0)
  else (decimalParts? cs).map (fun (digits, exponent) => nearestFloat digits exponent)

/-- A literal as a truth value. -/
def literalBool? (cs : List Char) : Option Bool :=
  if cs = "true".toList then some true else if cs = "false".toList then some false else none

/-- A literal that is no name. -/
def literalValue? (cs : List Char) : Option Token :=
  match literalInt? cs with
  | some i => some (.int i)
  | none =>
    match literalFloat? cs with
    | some x => some (.float x)
    | none => (literalBool? cs).map .bool

/-! ### Tokens -/

/-- The token of a separator. -/
def separatorToken (c : Char) : Token :=
  if c = '(' then .opening else if c = ')' then .closing else if c = ',' then .comma
  else .semicolon

/-- The token of a sign that stands alone; blanks have none. -/
def signToken? (c : Char) : Option Token :=
  [('+', Token.plus), ('-', .minus), ('*', .star), ('/', .slash), ('%', .percent), ('^', .hat),
    ('=', .assign), ('!', .negate), ('>', .greater), ('<', .less)].lookup c

/-- The token of a sign with an equals sign behind it. -/
def signEqualToken? (c : Char) : Option Token :=
  [('+', Token.assign), ('-', .assign), ('*', .assign), ('/', .assign), ('%', .assign),
    ('^', .assign), ('=', .equal), ('!', .unequal), ('>', .atLeast), ('<', .atMost)].lookup c

/-- The token of a literal, and how many of the fragments behind it belong to it: a number may go
on with the sign and the digits of its exponent. -/
def joinLiteral (cs : List Char) (behind : List Fragment) : Token × Nat :=
  match literalValue? cs with
  | some token => (token, 0)
  | none =>
    let scientific? : Option Float :=
      match behind with
      | .sign s :: .literal ds :: _ =>
        if s = '+' || s = '-' then literalFloat? (cs ++ s :: ds) else none
      | _ => none
    match scientific? with
    | some x => (.float x, 2)
    | none => (.identifier (String.ofList cs), 0)

/-- The token of `&&` or `||`, of which the first sign is `c`. -/
def joinLogical (c : Char) (behind : List Fragment) : Except Fault (Token × Nat) :=
  match behind with
  | [] => .error (.partialToken c none)
  | .sign d :: more =>
    if d ≠ c then .error (.partialToken c (some (Fragment.sign d).shown))
    else
      match more with
      | .sign '=' :: _ => .ok (.assign, 2)
      | _ => .ok (if c = '&' then .both else .either, 1)
  | second :: _ => .error (.partialToken c (some second.shown))

/-- The token that starts with a sign, if it is no blank, and how many of the fragments behind it
belong to it. -/
def joinSign (c : Char) (behind : List Fragment) : Except Fault (Option Token × Nat) :=
  if c = '&' || c = '|' then (joinLogical c behind).map (fun (token, taken) => (some token, taken))
  else
    let single := (signToken? c, 0)
    match behind with
    | .sign '=' :: _ =>
      match signEqualToken? c with
      | some token => .ok (some token, 1)
      | none => .ok single
    | _ => .ok single

/-- Joins fragments to tokens. -/
def join : List Fragment → Except Fault (List Token)
  | [] => .ok []
  | .string text :: rest => (join rest).map (.string text :: ·)
  | .separator c :: rest => (join rest).map (separatorToken c :: ·)
  | .literal cs :: rest =>
    let (token, taken) := joinLiteral cs rest
    (join (rest.drop taken)).map (token :: ·)
  | .sign c :: rest => do
    let (token?, taken) ← joinSign c rest
    let more ← join (rest.drop taken)
    return token?.toList ++ more
termination_by fs => fs.length
decreasing_by all_goals (simp only [List.length_cons, List.length_drop]; omega)

/-- **The tokens of a text.** -/
def tokens (text : String) : Except Fault (List Token) := (fragments text).bind join

end CallChain.Predicate
