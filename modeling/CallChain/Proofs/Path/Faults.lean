import CallChain.Proofs.Path.Grammar
import Mathlib.Data.List.TakeWhile

/-!
# The first fault of a text

A text that is no path is refused, and the refusal names a place. What stands before that place is
a viable start: it can be continued to a path. What stands there cannot: from the character at that
place on, or from the brackets that open there, no continuation is a path. So the place is the first
one at which the text goes wrong (`CallChain.FieldPath.parse_error_laws`).

* `CallChain.FieldPath.Viable`: the starts of paths.
* `CallChain.FieldPath.Fault`: what is wrong with a text at its very beginning, one rule for each
  exit of the reader.
* `CallChain.FieldPath.exists_failsAfter`: a text that is refused is made of tokens, which are read,
  and a rest that starts with a fault.

All continuations have to be refused, not only the text at hand. The reader takes as much of a text
as it can, so it could take more of a continuation; but a rest that is not empty ends the tokens
before it whatever follows, for only its first character counts.
-/

set_option autoImplicit false

namespace CallChain

/-- The place that an error names. -/
def PathError.position? : PathError → Option ℕ
  | .empty => none
  | .emptySegment position => some position
  | .unexpectedChar _ position => some position
  | .unclosedIndex position => some position
  | .badIndex _ position => some position

namespace FieldPath

/-! ### Starts of paths -/

/-- **A viable start**: some text that starts so, or the text itself, is a path. -/
def Viable (start : List Char) : Prop :=
  ∃ (more : List Char) (p : FieldPath), parse (String.ofList (start ++ more)) = .ok p

/-- Some name. -/
def Token.a : Token := .name ['a'] (by decide) (List.forall_iff_forall_mem.mp (by decide))

theorem spell_append (started : Bool) (ts us : List Token) :
    spell started (ts ++ us) = spell started ts ++ spell (started || !ts.isEmpty) us := by
  induction ts generalizing started with
  | nil => simp [spell]
  | cons t more ih => simp [spell, ih]

theorem viable_of_isPrefix {start : List Char} (ts : List Token) (hne : ts ≠ [])
    (h : start <+: spell false ts) : Viable start := by
  obtain ⟨more, hmore⟩ := h
  refine ⟨more, ts.map Token.segment, parse_eq_ok_iff.mpr ⟨ts, hne, ?_, rfl⟩⟩
  rw [String.toList_ofList, hmore]

/-- **What was read is a viable start**: one more name can follow. -/
theorem viable_spell (ts : List Token) : Viable (spell false ts) := by
  refine viable_of_isPrefix (ts ++ [.a]) (by simp) ?_
  rw [spell_append]
  exact List.prefix_append _ _

/-- After a step a dot can follow. -/
theorem viable_spell_dot {ts : List Token} (hne : ts ≠ []) : Viable (spell false ts ++ ['.']) := by
  have hstarted : (false || !ts.isEmpty) = true := by simpa using hne
  refine viable_of_isPrefix (ts ++ [.a]) (by simp) ⟨['a'], ?_⟩
  rw [spell_append, hstarted, List.append_assoc]
  rfl

/-! ### Texts that cannot be read -/

/-- **A text from which no path can be read**, wherever it stands. -/
def Unreadable (started : Bool) (cs : List Char) : Prop :=
  ∀ position, ∃ e, parseFrom started position cs = .error e

/-- **A start that no continuation makes readable is not viable.** -/
theorem not_viable_of_unreadable {start : List Char} (hne : start ≠ [])
    (h : ∀ more, Unreadable false (start ++ more)) : ¬Viable start := by
  rintro ⟨more, p, hread⟩
  obtain ⟨e, he⟩ := h more 0
  have hempty : ¬(String.ofList (start ++ more)).isEmpty := by
    simp [String.isEmpty_iff, ← String.toList_eq_nil_iff, hne]
  rw [parse, if_neg hempty, String.toList_ofList, he] at hread
  cases hread

/-- A token ends before a text if it ends before one that starts alike. -/
theorem Token.EndsBefore.congr {t : Token} {rest rest' : List Char} (h : t.EndsBefore rest)
    (hhead : rest'.head? = rest.head?) : t.EndsBefore rest' := by
  cases t with
  | name => exact fun c hc => h c (hhead ▸ hc)
  | index => exact trivial

theorem Unreadable.spell_append {t : Token} {rest : List Char} (h : Unreadable true rest)
    (hends : t.EndsBefore rest) (started : Bool) :
    Unreadable started (t.spell started ++ rest) := by
  intro position
  obtain ⟨e, he⟩ := h (position + (t.spell started).length)
  refine ⟨e, ?_⟩
  rw [parseFrom_spell t started position hends, he]
  rfl

/-! ### Faults -/

/-- A character that starts no step behind another one: neither a dot nor a bracket. -/
def NoDelimiter (c : Char) : Prop := c ≠ '[' ∧ c ≠ '.'

/-- **What is wrong with a text at its very beginning**, at `position`. `started` says whether a
step stands before it. The text is `bad ++ more`, where `bad` is the start that is beyond repair,
if there is one. -/
inductive Fault (position : ℕ) : Bool → List Char → List Char → PathError → Prop
  /-- A bracket that is not closed; it could be. -/
  | unclosed {started : Bool} {inside : List Char} (hopen : ']' ∉ inside) :
      Fault position started [] ('[' :: inside) (.unclosedIndex position)
  /-- Brackets around what is no index. -/
  | noIndex {started : Bool} {inside more : List Char} (hinside : ']' ∉ inside)
      (hvalue : Segment.indexValue? inside = none) :
      Fault position started ('[' :: (inside ++ [']'])) more
        (.badIndex (String.ofList inside) position)
  /-- A dot with nothing before it. -/
  | leadingDot {more : List Char} : Fault position false ['.'] more (.emptySegment position)
  /-- A dot at the end; a name could follow. -/
  | trailingDot : Fault position true [] ['.'] (.emptySegment (position + 1))
  /-- A dot with nothing between it and the next delimiter. -/
  | noName {c : Char} {more : List Char} (hc : ¬NoDelimiter c) :
      Fault position true ['.', c] more (.emptySegment (position + 1))
  /-- A dot and a character of no name. -/
  | badName {c : Char} {more : List Char} (hc : NoDelimiter c) (hname : ¬NameLetter c) :
      Fault position true ['.', c] more (.unexpectedChar c (position + 1))
  /-- Behind a step something else than a dot or a bracket. -/
  | noDelimiter {c : Char} {more : List Char} (hc : NoDelimiter c) :
      Fault position true [c] more (.unexpectedChar c position)
  /-- A first character of no name. -/
  | badStart {c : Char} {more : List Char} (hc : NoDelimiter c) (hname : ¬NameLetter c) :
      Fault position false [c] more (.unexpectedChar c position)

/-- **A name is missing** at the end, at a delimiter, or at a character of no name. -/
theorem parseName_eq_error_iff {position : ℕ} {cs : List Char} {e : PathError} :
    parseName position cs = .error e ↔
      cs = [] ∧ e = .emptySegment position ∨
      ∃ c more, cs = c :: more ∧
        (¬NoDelimiter c ∧ e = .emptySegment position ∨
          NoDelimiter c ∧ ¬NameLetter c ∧ e = .unexpectedChar c position) := by
  cases cs with
  | nil => simp [parseName, eq_comm (b := e)]
  | cons c more =>
    by_cases hletter : NameLetter c
    · -- A name that has a character is read, and a delimiter is in no name.
      have hname : Segment.isNameChar c = true := isNameChar_iff.mpr hletter
      have hbracket : c ≠ '[' := ne_of_nameLetter (by decide) hletter
      have hdot : c ≠ '.' := ne_of_nameLetter (by decide) hletter
      simp [parseName, List.takeWhile_cons_of_pos hname, NoDelimiter, hbracket, hdot, hletter]
    · have hname : ¬Segment.isNameChar c = true := isNameChar_iff.not.mpr hletter
      rw [parseName, List.takeWhile_cons_of_neg hname, List.dropWhile_cons_of_neg hname]
      by_cases hc : NoDelimiter c
      · simp [hc, hc.1, hc.2, hletter, eq_comm (b := e)]
      · have hdelimiter : c = '.' ∨ c = '[' := by
          unfold NoDelimiter at hc
          tauto
        simp [hc, hdelimiter, eq_comm (b := e)]

/-- Behind a dot the name decides. -/
theorem parseFrom_dot_eq_error {position : ℕ} {more : List Char} {e : PathError}
    (h : parseName (position + 1) more = .error e) :
    parseFrom true position ('.' :: more) = .error e := by
  rw [parseFrom, if_pos rfl]
  split
  · rename_i he
    cases h.symm.trans he
    rfl
  · rename_i hok
    cases h.symm.trans hok

/-- At the beginning of a text the name decides, if it does not start with a delimiter. -/
theorem parseFrom_first_eq_error {position : ℕ} {c : Char} {more : List Char} {e : PathError}
    (hc : NoDelimiter c) (h : parseName position (c :: more) = .error e) :
    parseFrom false position (c :: more) = .error e := by
  rw [parseFrom.eq_4 _ _ _ _ hc.1 hc.2, if_neg Bool.false_ne_true]
  split
  · rename_i he
    cases h.symm.trans he
    rfl
  · rename_i hok
    cases h.symm.trans hok

theorem bracket_notMem_of_dropWhile {inside : List Char}
    (h : inside.dropWhile (· != ']') = []) : ']' ∉ inside := by
  intro hmem
  have hall := List.dropWhile_eq_nil_iff.mp h ']' hmem
  simp at hall

theorem bracket_notMem_takeWhile (inside : List Char) : ']' ∉ inside.takeWhile (· != ']') := by
  intro hmem
  have htaken := List.all_eq_true.mp List.all_takeWhile ']' hmem
  simp at htaken

namespace Fault

variable {started : Bool} {position : ℕ} {bad more : List Char} {e : PathError}

/-- A name that is missing behind a dot is a fault of the dot. -/
theorem exists_of_dot (h : parseName (position + 1) more = .error e) :
    ∃ bad rest, Fault position true bad rest e ∧ '.' :: more = bad ++ rest := by
  rcases parseName_eq_error_iff.mp h with
    ⟨rfl, rfl⟩ | ⟨c, rest, rfl, ⟨hc, rfl⟩ | ⟨hc, hletter, rfl⟩⟩
  · exact ⟨[], ['.'], trailingDot, rfl⟩
  · exact ⟨['.', c], rest, noName hc, rfl⟩
  · exact ⟨['.', c], rest, badName hc hletter, rfl⟩

/-- A name that is missing at the beginning is a fault of the first character. -/
theorem of_first {c : Char} (hc : NoDelimiter c) (h : parseName position (c :: more) = .error e) :
    Fault position false [c] more e := by
  rcases parseName_eq_error_iff.mp h with
    ⟨heq, -⟩ | ⟨c', more', heq, ⟨hc', -⟩ | ⟨-, hletter, rfl⟩⟩
  · cases heq
  · cases heq
    exact absurd hc hc'
  · cases heq
    exact badStart hc hletter

/-- **A fault is what a text is refused for.** -/
theorem parseFrom_eq_error (h : Fault position started bad more e) :
    parseFrom started position (bad ++ more) = .error e := by
  cases h with
  | unclosed hopen =>
    rw [List.nil_append, parseFrom]
    split
    · rfl
    · rename_i hafter
      rw [eq_append_of_dropWhile_bracket hafter] at hopen
      simp at hopen
  | @noIndex _ inside _ hinside hvalue =>
    have hkept : ∀ c ∈ inside, (c != ']') = true :=
      fun c hc => bne_iff_ne.mpr (ne_of_mem_of_not_mem hc hinside)
    obtain ⟨htake, hdrop⟩ := span_append hkept (stops_bracket more)
    rw [List.cons_append, List.append_assoc, List.singleton_append, parseFrom, htake]
    split
    · rename_i hafter
      rw [hdrop] at hafter
      cases hafter
    · rw [hvalue]
  | leadingDot => rw [List.singleton_append, parseFrom, if_neg Bool.false_ne_true]
  | trailingDot => exact parseFrom_dot_eq_error rfl
  | noName hc =>
    exact parseFrom_dot_eq_error
      (parseName_eq_error_iff.mpr (Or.inr ⟨_, _, rfl, Or.inl ⟨hc, rfl⟩⟩))
  | badName hc hname =>
    exact parseFrom_dot_eq_error
      (parseName_eq_error_iff.mpr (Or.inr ⟨_, _, rfl, Or.inr ⟨hc, hname, rfl⟩⟩))
  | noDelimiter hc =>
    rw [List.singleton_append, parseFrom.eq_4 _ _ _ _ hc.1 hc.2, if_pos rfl]
  | badStart hc hname =>
    exact parseFrom_first_eq_error hc
      (parseName_eq_error_iff.mpr (Or.inr ⟨_, _, rfl, Or.inr ⟨hc, hname, rfl⟩⟩))

/-- **What is beyond repair stays so**, whatever follows and wherever it stands. -/
theorem unreadable (h : Fault position started bad more e) (hne : bad ≠ []) (later : List Char) :
    Unreadable started (bad ++ later) := by
  intro place
  cases h with
  | unclosed | trailingDot => exact absurd rfl hne
  | noIndex hinside hvalue => exact ⟨_, (noIndex hinside hvalue).parseFrom_eq_error⟩
  | leadingDot => exact ⟨_, leadingDot.parseFrom_eq_error⟩
  | noName hc => exact ⟨_, (noName hc).parseFrom_eq_error⟩
  | badName hc hname => exact ⟨_, (badName hc hname).parseFrom_eq_error⟩
  | noDelimiter hc => exact ⟨_, (noDelimiter hc).parseFrom_eq_error⟩
  | badStart hc hname => exact ⟨_, (badStart hc hname).parseFrom_eq_error⟩

end Fault

/-! ### The place of a fault -/

/-- **A text of tokens and a rest that starts with a fault.** The tokens are read before any text
that starts like the rest, so what cannot be read there makes the whole unreadable. -/
structure FailsAfter (started : Bool) (position : ℕ) (cs : List Char) (e : PathError)
    (ts : List Token) (bad more : List Char) : Prop where
  text_eq : spell started ts ++ (bad ++ more) = cs
  fault : Fault (position + (spell started ts).length) (started || !ts.isEmpty) bad more e
  unreadable : ∀ rest, rest.head? = (bad ++ more).head? →
    Unreadable (started || !ts.isEmpty) rest → Unreadable started (spell started ts ++ rest)

section FailsAfter

variable {started : Bool} {position : ℕ} {cs bad more : List Char} {e : PathError}
  {ts : List Token}

theorem Fault.failsAfter (h : Fault position started bad more e) :
    FailsAfter started position (bad ++ more) e [] bad more where
  text_eq := rfl
  fault := by simpa [spell] using h
  unreadable := by simp [spell]

theorem FailsAfter.cons {t : Token}
    (h : FailsAfter true (position + (t.spell started).length) cs e ts bad more)
    (hends : t.EndsBefore cs) :
    FailsAfter started position (t.spell started ++ cs) e (t :: ts) bad more where
  text_eq := by rw [spell, List.append_assoc, h.text_eq]
  fault := by
    have hfault := h.fault
    rw [Nat.add_assoc, ← List.length_append] at hfault
    simpa [spell] using hfault
  unreadable := by
    intro rest hhead hrest
    have hsame : (spell true ts ++ rest).head? = cs.head? := by
      rw [← h.text_eq, List.head?_append, List.head?_append, hhead]
    rw [spell, List.append_assoc]
    refine (h.unreadable rest hhead ?_).spell_append (hends.congr hsame) started
    simpa using hrest

/-- **A text that is refused is made of tokens and a rest that starts with a fault**: by induction
on the reading, one token for each step. -/
theorem exists_failsAfter (h : parseFrom started position cs = .error e) :
    ∃ ts bad more, FailsAfter started position cs e ts bad more := by
  fun_induction parseFrom started position cs with
  | case1 => cases h
  | case2 started position inside hafter =>
    cases h
    exact ⟨[], _, _, (Fault.unclosed (bracket_notMem_of_dropWhile hafter)).failsAfter⟩
  | case3 started position inside digits head after hafter hvalue =>
    cases h
    have htext : '[' :: inside = '[' :: (digits ++ [']']) ++ after := by
      rw [eq_append_of_dropWhile_bracket hafter]
      simp [digits]
    rw [htext]
    exact ⟨[], _, _, (Fault.noIndex (bracket_notMem_takeWhile inside) hvalue).failsAfter⟩
  | case4 started position inside digits head after hafter i hvalue ih =>
    obtain ⟨ts, bad, more, hfails⟩ := ih (except_map_eq_error_iff.mp h)
    obtain ⟨⟨hne, hvalid⟩, hbound, -⟩ := indexValue?_eq_some_iff.mp hvalue
    have htext : '[' :: inside = (Token.index digits hne hvalid hbound).spell started ++ after := by
      rw [eq_append_of_dropWhile_bracket hafter]
      simp [digits, Token.spell]
    have hlength : ((Token.index digits hne hvalid hbound).spell started).length =
        digits.length + 2 := by
      simp [Token.spell]
    rw [htext]
    refine ⟨_ :: ts, bad, more, FailsAfter.cons ?_ trivial⟩
    rwa [hlength, ← Nat.add_assoc]
  | case5 position more e' hname =>
    cases h
    obtain ⟨bad, rest, hfault, htext⟩ := Fault.exists_of_dot hname
    rw [htext]
    exact ⟨[], bad, rest, hfault.failsAfter⟩
  | case6 position more name rest hname ih =>
    obtain ⟨ts, bad, more, hfails⟩ := ih (except_map_eq_error_iff.mp h)
    obtain ⟨rfl, hne, hvalid, hstops⟩ := parseName_eq_ok_iff.mp hname
    refine ⟨_ :: ts, bad, more, FailsAfter.cons (t := .name name hne hvalid) ?_ hstops⟩
    rwa [Token.spell, if_pos rfl, List.length_cons, Nat.add_comm name.length, ← Nat.add_assoc]
  | case7 started position more hstarted =>
    cases h
    rw [Bool.eq_false_iff.mpr hstarted]
    exact ⟨[], _, _, Fault.leadingDot.failsAfter⟩
  | case8 position c more hbracket hdot =>
    cases h
    exact ⟨[], _, _, (Fault.noDelimiter ⟨hbracket, hdot⟩).failsAfter⟩
  | case9 started position c more hbracket hdot hstarted e' hname =>
    cases h
    rw [Bool.eq_false_iff.mpr hstarted]
    exact ⟨[], _, _, (Fault.of_first ⟨hbracket, hdot⟩ hname).failsAfter⟩
  | case10 started position c more hbracket hdot hstarted name rest hname ih =>
    obtain ⟨ts, bad, more, hfails⟩ := ih (except_map_eq_error_iff.mp h)
    obtain ⟨hmore, hne, hvalid, hstops⟩ := parseName_eq_ok_iff.mp hname
    rw [hmore, Bool.eq_false_iff.mpr hstarted]
    exact ⟨_ :: ts, bad, more, FailsAfter.cons (t := .name name hne hvalid) hfails hstops⟩

/-- What stands before the fault is a viable start. -/
theorem FailsAfter.viable_take (h : FailsAfter false position cs e ts bad more) :
    Viable (cs.take (spell false ts).length) := by
  rw [← h.text_eq, List.take_left]
  exact viable_spell ts

/-- **The text up to what is beyond repair is so, too.** -/
theorem FailsAfter.not_viable_take (h : FailsAfter false position cs e ts bad more)
    (hne : bad ≠ []) : ¬Viable (cs.take ((spell false ts).length + bad.length)) := by
  rw [← h.text_eq, List.take_length_add_append, List.take_left]
  refine not_viable_of_unreadable (List.append_ne_nil_of_right_ne_nil _ hne) fun later => ?_
  rw [List.append_assoc]
  refine h.unreadable _ ?_ (h.fault.unreadable hne later)
  rw [List.head?_append_of_ne_nil _ hne, List.head?_append_of_ne_nil _ hne]

end FailsAfter

/-! ### What an error says -/

/-- **What an error says of a text from its place on.**

* A segment is empty: the text is over there, or the character there is beyond repair.
* A character is not expected: it stands there and is beyond repair.
* An index is not closed: a bracket stands there, and no closing one follows.
* An index is none: up to the next closing bracket the text is beyond repair. -/
def Condemns (cs : List Char) : PathError → Prop
  | .empty => cs = []
  | .emptySegment position => position < cs.length → ¬Viable (cs.take (position + 1))
  | .unexpectedChar c position => cs[position]? = some c ∧ ¬Viable (cs.take (position + 1))
  | .unclosedIndex position => cs[position]? = some '[' ∧ ']' ∉ cs.drop position
  | .badIndex inside position => ']' ∉ inside.toList ∧
    (∃ after, cs.drop position = '[' :: (inside.toList ++ ']' :: after)) ∧
    ¬Viable (cs.take (position + inside.length + 2))

/-- **The place of an error is the first at which the text goes wrong.** An error other than that
for the empty text has a place within the text or at its end. What stands before it can be continued
to a path, and what stands there cannot, in the way that the error says. -/
theorem parse_error_laws {text : String} {e : PathError} (h : parse text = .error e)
    (hne : e ≠ .empty) :
    ∃ position, e.position? = some position ∧ position ≤ text.length ∧
      Viable (text.toList.take position) ∧ Condemns text.toList e := by
  have hread : parseFrom false 0 text.toList = .error e := by
    rw [parse] at h
    split at h
    · cases h
      exact absurd rfl hne
    · exact h
  obtain ⟨ts, bad, more, hfails⟩ := exists_failsAfter hread
  have hbefore := hfails.viable_take
  have hbehind := hfails.not_viable_take
  have hfault := hfails.fault
  rw [← String.length_toList]
  rw [← hfails.text_eq] at hbefore hbehind ⊢
  generalize hstarted : (false || !ts.isEmpty) = started at hfault
  -- After a dot that follows a step the place is one further.
  have hdot : started = true → ∀ rest,
      Viable ((spell false ts ++ '.' :: rest).take ((spell false ts).length + 1)) := by
    rintro rfl rest
    rw [List.take_length_add_append]
    exact viable_spell_dot (by simpa using hstarted)
  rw [Nat.zero_add] at hfault
  cases hfault with
  | unclosed hopen => exact ⟨_, rfl, by simp, hbefore, by simp, by simpa using hopen⟩
  | noIndex hinside hvalue =>
    refine ⟨_, rfl, by simp, hbefore, by simpa using hinside, ⟨more, by simp⟩, ?_⟩
    simpa [Nat.add_assoc] using hbehind (List.cons_ne_nil _ _)
  | leadingDot => exact ⟨_, rfl, by simp, hbefore, fun _ => hbehind (List.cons_ne_nil _ _)⟩
  | trailingDot => exact ⟨_, rfl, by simp, hdot rfl _, fun hlt => by simp at hlt⟩
  | noName hc => exact ⟨_, rfl, by simp, hdot rfl _, fun _ => hbehind (List.cons_ne_nil _ _)⟩
  | badName hc hname =>
    exact ⟨_, rfl, by simp, hdot rfl _, by simp, hbehind (List.cons_ne_nil _ _)⟩
  | noDelimiter hc => exact ⟨_, rfl, by simp, hbefore, by simp, hbehind (List.cons_ne_nil _ _)⟩
  | badStart hc hname =>
    exact ⟨_, rfl, by simp, hbefore, by simp, hbehind (List.cons_ne_nil _ _)⟩

/-- Brackets around what is no index: the name before them can be continued, and the brackets
condemn every continuation. -/
theorem items_parse_error :
    parse "items[1x].id" = .error (.badIndex "1x" 5) ∧
      Viable "items".toList ∧ ¬Viable "items[1x]".toList := by
  have hread : parse "items[1x].id" = .error (.badIndex "1x" 5) := by decide +kernel
  obtain ⟨position, hposition, -, hbefore, -, -, hbehind⟩ := parse_error_laws hread (by simp)
  cases hposition
  exact ⟨hread, hbefore, hbehind⟩

end FieldPath

end CallChain
