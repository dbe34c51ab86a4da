import CallChain.Path

/-!
# Reading field paths

A path is a first step and more steps: names of letters, digits, `_`, `$` and `-`, separated by
dots, and indices in brackets, which need no dot. Positions in errors count code points.

* `Segment.isNameChar`: the characters of a name.
* `PathError`: what is wrong with a text and where, with `PathError.message`.
* `FieldPath.parse`: the path of a text.
-/

set_option autoImplicit false

namespace CallChain

/-- **What is wrong with the text of a path**, and at which code point. -/
inductive PathError where
  | empty
  | emptySegment (position : Nat)
  | unexpectedChar (found : Char) (position : Nat)
  | unclosedIndex (position : Nat)
  | badIndex (text : String) (position : Nat)
deriving DecidableEq, Repr

namespace PathError

/-- The wording of an error. -/
def message : PathError → String
  | .empty => "path is empty"
  | .emptySegment p => "empty segment at position " ++ toString p
  | .unexpectedChar c p =>
    "unsupported character `" ++ String.singleton c ++ "` at position " ++ toString p
  | .unclosedIndex p => "unclosed `[` at position " ++ toString p
  | .badIndex text p =>
    "`" ++ text ++ "` is not an array index (position " ++ toString p ++ ")"

/-- The name of the kind of an error. -/
def kind : PathError → String
  | .empty => "Empty"
  | .emptySegment _ => "EmptySegment"
  | .unexpectedChar _ _ => "UnexpectedChar"
  | .unclosedIndex _ => "UnclosedIndex"
  | .badIndex _ _ => "BadIndex"

end PathError

/-- The characters of a name: ASCII letters and digits, `_`, `-` and `$`. -/
def Segment.isNameChar (c : Char) : Bool := c.isAlphanum || c = '_' || c = '-' || c = '$'

/-- The greatest index that can be written, plus one. -/
def Segment.indexBound : Nat := Nat.pow 2 64

/-- **The value of an index**: one or more digits, within the bound. -/
def Segment.indexValue? (digits : List Char) : Option Nat :=
  if digits.isEmpty || !digits.all Char.isDigit then none
  else
    let n := digits.foldl (fun n d => n * 10 + (d.toNat - '0'.toNat)) 0
    if n < Segment.indexBound then some n else none

namespace FieldPath

/-- Reads a name that must not be empty: its characters and what follows them. -/
def parseName (position : Nat) (cs : List Char) : Except PathError (List Char × List Char) :=
  let name := cs.takeWhile Segment.isNameChar
  let rest := cs.dropWhile Segment.isNameChar
  if name.isEmpty then
    match rest with
    | c :: _ =>
      if c = '.' || c = '[' then .error (.emptySegment position)
      else .error (.unexpectedChar c position)
    | [] => .error (.emptySegment position)
  else .ok (name, rest)

theorem length_rest_lt {position : Nat} {cs name rest : List Char}
    (h : parseName position cs = .ok (name, rest)) : rest.length < cs.length := by
  have hsplit : (cs.takeWhile Segment.isNameChar).length
      + (cs.dropWhile Segment.isNameChar).length = cs.length := by
    rw [← List.length_append, List.takeWhile_append_dropWhile]
  unfold parseName at h
  simp only at h
  split at h
  · split at h
    · split at h <;> cases h
    · cases h
  · rename_i hne
    cases h
    have hpos : 0 < (cs.takeWhile Segment.isNameChar).length := by
      rcases hlen : cs.takeWhile Segment.isNameChar with _ | ⟨c, more⟩
      · simp [hlen] at hne
      · simp
    omega

/-- Reads steps. `started` says whether a step has been read already; `position` counts the code
points before the text. -/
def parseFrom (started : Bool) (position : Nat) (cs : List Char) : Except PathError FieldPath :=
  match cs with
  | [] => .ok []
  | '[' :: inside =>
    let digits := inside.takeWhile (· != ']')
    match _hafter : inside.dropWhile (· != ']') with
    | [] => .error (.unclosedIndex position)
    | _ :: after =>
      match Segment.indexValue? digits with
      | none => .error (.badIndex (String.ofList digits) position)
      | some i => (parseFrom true (position + digits.length + 2) after).map (.index i :: ·)
  | '.' :: more =>
    if started then
      match _hname : parseName (position + 1) more with
      | .error e => .error e
      | .ok (name, rest) =>
        (parseFrom true (position + 1 + name.length) rest).map
          (.field (String.ofList name) :: ·)
    else .error (.emptySegment position)
  | c :: more =>
    if started then .error (.unexpectedChar c position)
    else
      match _hname : parseName position (c :: more) with
      | .error e => .error e
      | .ok (name, rest) =>
        (parseFrom true (position + name.length) rest).map (.field (String.ofList name) :: ·)
termination_by cs.length
decreasing_by
  · have hle := (List.dropWhile_suffix (· != ']') (l := inside)).length_le
    rw [_hafter] at hle
    simp only [List.length_cons] at hle ⊢
    omega
  · have hlt := length_rest_lt _hname
    simp only [List.length_cons]
    omega
  · exact length_rest_lt _hname

/-- **The path of a text.** -/
def parse (text : String) : Except PathError FieldPath :=
  if text.isEmpty then .error .empty else parseFrom false 0 text.toList

end FieldPath

end CallChain
