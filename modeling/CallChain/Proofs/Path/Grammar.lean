import CallChain.Path.Parser
import CallChain.Proofs.Result
import Mathlib.Data.List.Basic
import Mathlib.Data.String.Basic

/-!
# The grammar of field paths

A path is written as a first step and more steps. A step is a name or an index in brackets; a name
that does not come first has a dot before it.

    path  ::= first rest*          name  ::= one or more of A-Z a-z 0-9 _ $ -
    first ::= name | index         index ::= '[' one or more digits ']', below 2 ^ 64
    rest  ::= '.' name | index

* `CallChain.FieldPath.Token`, `CallChain.FieldPath.Derivation`: steps as they are written, and the
  derivations of the grammar. A derivation knows its text and its path.
* `CallChain.FieldPath.spell_injective`: no text has two derivations.
* `CallChain.FieldPath.parse_eq_ok_iff_derivation`: the reader accepts what the grammar derives and
  nothing else, and answers with the path of the derivation.

The reader takes from the text as much as it can: a name goes up to the first character that is in
no name, an index up to the next bracket. It is led back to the grammar by one fact on lists, that
this is all of a name and no more when the text goes on with a character of another kind
(`CallChain.FieldPath.span_append`).
-/

set_option autoImplicit false

namespace CallChain.FieldPath

/-! ### Derivations -/

/-- **A character of a name.** -/
def NameLetter (c : Char) : Prop :=
  ('A' ≤ c ∧ c ≤ 'Z') ∨ ('a' ≤ c ∧ c ≤ 'z') ∨ ('0' ≤ c ∧ c ≤ '9') ∨ c = '_' ∨ c = '$' ∨ c = '-'

instance : DecidablePred NameLetter := fun c => inferInstanceAs <| Decidable <|
  ('A' ≤ c ∧ c ≤ 'Z') ∨ ('a' ≤ c ∧ c ≤ 'z') ∨ ('0' ≤ c ∧ c ≤ '9') ∨ c = '_' ∨ c = '$' ∨ c = '-'

/-- A decimal digit. -/
def DecimalDigit (c : Char) : Prop := '0' ≤ c ∧ c ≤ '9'

instance : DecidablePred DecimalDigit := fun c => inferInstanceAs (Decidable ('0' ≤ c ∧ c ≤ '9'))

/-- **A step as it is written**: the characters of a name, or the digits of an index, which may
have leading zeros. -/
inductive Token where
  | name (letters : List Char) (nonempty : letters ≠ []) (valid : ∀ c ∈ letters, NameLetter c)
  | index (digits : List Char) (nonempty : digits ≠ []) (valid : ∀ c ∈ digits, DecimalDigit c)
    (bounded : Nat.ofDigitChars 10 digits 0 ≤ 2 ^ 64 - 1)

namespace Token

/-- The characters of a step. `started` says whether a step stands before it. -/
def spell (started : Bool) : Token → List Char
  | .name letters _ _ => if started then '.' :: letters else letters
  | .index digits _ _ _ => '[' :: digits ++ [']']

/-- The step that is meant. -/
def segment : Token → Segment
  | .name letters _ _ => .field (String.ofList letters)
  | .index digits _ _ _ => .index (Nat.ofDigitChars 10 digits 0)

end Token

/-- The characters of steps in a row. -/
def spell : Bool → List Token → List Char
  | _, [] => []
  | started, t :: ts => t.spell started ++ spell true ts

/-- **A derivation of the grammar**: a first step and more steps. -/
structure Derivation where
  first : Token
  rest : List Token

namespace Derivation

/-- The text that is derived. -/
def text (d : Derivation) : String := String.ofList (FieldPath.spell false (d.first :: d.rest))

/-- The path that is derived: the steps in order. -/
def path (d : Derivation) : FieldPath := (d.first :: d.rest).map Token.segment

end Derivation

/-! ### Characters -/

theorem decimalDigit_iff {c : Char} : DecimalDigit c ↔ c.isDigit = true := by
  simp only [DecimalDigit, Char.isDigit, Bool.and_eq_true, decide_eq_true_eq, Char.le_def,
    ge_iff_le]

/-- The reader's test for a character of a name is that of the grammar. -/
theorem isNameChar_iff {c : Char} : Segment.isNameChar c = true ↔ NameLetter c := by
  have halphanum : c.isAlphanum = (c.isUpper || c.isLower || c.isDigit) := rfl
  have hupper : c.isUpper = decide ('A'.val ≤ c.val ∧ c.val ≤ 'Z'.val) := rfl
  have hlower : c.isLower = (decide ('a'.val ≤ c.val) && decide (c.val ≤ 'z'.val)) := rfl
  simp only [Segment.isNameChar, halphanum, hupper, hlower, Char.isDigit, Bool.or_eq_true,
    Bool.and_eq_true, decide_eq_true_eq, NameLetter, Char.le_def, ge_iff_le]
  tauto

/-- A text does not go on with a character of a kind. -/
def Stops (p : Char → Bool) (cs : List Char) : Prop := ∀ c ∈ cs.head?, p c = false

/-- **Characters of a kind are taken as far as they go**, when the text does not go on with one. -/
theorem span_append {p : Char → Bool} {taken rest : List Char} (htaken : ∀ c ∈ taken, p c = true)
    (hrest : Stops p rest) :
    (taken ++ rest).takeWhile p = taken ∧ (taken ++ rest).dropWhile p = rest := by
  rw [List.takeWhile_append_of_pos htaken, List.dropWhile_append_of_pos htaken]
  cases rest with
  | nil => exact ⟨List.append_nil taken, rfl⟩
  | cons c more =>
    have hc : p c = false := hrest c rfl
    rw [List.takeWhile_cons_of_neg (by simp [hc]), List.dropWhile_cons_of_neg (by simp [hc])]
    exact ⟨List.append_nil taken, rfl⟩

theorem stops_dropWhile (p : Char → Bool) (cs : List Char) : Stops p (cs.dropWhile p) := by
  intro c hc
  have h := List.head?_dropWhile_not p cs
  rw [Option.mem_def.mp hc] at h
  exact h

theorem isNameChar_of_mem_letters {letters : List Char} (hvalid : ∀ c ∈ letters, NameLetter c) :
    ∀ c ∈ letters, Segment.isNameChar c = true :=
  fun c hc => isNameChar_iff.mpr (hvalid c hc)

theorem ne_of_nameLetter {c other : Char} (hother : Segment.isNameChar other = false)
    (hc : NameLetter c) : c ≠ other := by
  rintro rfl
  exact Bool.false_ne_true (hother.symm.trans (isNameChar_iff.mpr hc))

theorem ne_bracket_of_mem_digits {digits : List Char} (hvalid : ∀ c ∈ digits, DecimalDigit c) :
    ∀ c ∈ digits, (c != ']') = true := by
  intro c hc
  have hdigit : c.isDigit = true := decimalDigit_iff.mp (hvalid c hc)
  rw [bne_iff_ne]
  rintro rfl
  exact absurd hdigit (by decide)

theorem stops_bracket (rest : List Char) : Stops (· != ']') (']' :: rest) := by
  rintro c ⟨⟩
  rfl

/-- Where a text is read up to the next bracket, the bracket follows. -/
theorem eq_append_of_dropWhile_bracket {inside after : List Char} {head : Char}
    (h : inside.dropWhile (· != ']') = head :: after) :
    inside = inside.takeWhile (· != ']') ++ ']' :: after := by
  obtain rfl : head = ']' := by
    have hstops := stops_dropWhile (· != ']') inside head (by rw [h]; rfl)
    simpa using hstops
  rw [← h]
  exact List.takeWhile_append_dropWhile.symm

/-- **After a step no name goes on**: the text is over, or a dot or a bracket follows. -/
theorem stops_spell (ts : List Token) : Stops Segment.isNameChar (spell true ts) := by
  cases ts with
  | nil =>
    intro c hc
    cases hc
  | cons t more =>
    intro c hc
    cases t with
    | name letters _ _ =>
      obtain rfl : '.' = c := Option.some_inj.mp hc
      decide
    | index digits _ _ _ =>
      obtain rfl : '[' = c := Option.some_inj.mp hc
      decide

/-! ### One step -/

/-- The digits of an index that is within the bound have a value, and nothing else has. -/
theorem indexValue?_eq_some_iff {digits : List Char} {n : ℕ} :
    Segment.indexValue? digits = some n ↔
      (digits ≠ [] ∧ ∀ c ∈ digits, DecimalDigit c) ∧ Nat.ofDigitChars 10 digits 0 ≤ 2 ^ 64 - 1 ∧
        Nat.ofDigitChars 10 digits 0 = n := by
  have hvalue : digits.foldl (fun n d => n * 10 + (d.toNat - '0'.toNat)) 0 =
      Nat.ofDigitChars 10 digits 0 := by
    simp only [Nat.ofDigitChars_eq_foldl, Nat.mul_comm]
  have hwritten : (digits.isEmpty || !digits.all Char.isDigit) = false ↔
      digits ≠ [] ∧ ∀ c ∈ digits, DecimalDigit c := by
    simp [decimalDigit_iff]
  have hbound : Nat.ofDigitChars 10 digits 0 < Segment.indexBound ↔
      Nat.ofDigitChars 10 digits 0 ≤ 2 ^ 64 - 1 := by
    rw [show Segment.indexBound = 2 ^ 64 from rfl]
    omega
  rw [Segment.indexValue?, hvalue, ← hwritten]
  cases digits.isEmpty || !digits.all Char.isDigit with
  | true => simp
  | false => simp [hbound]

/-- A name is read when there is one, as far as it goes. -/
theorem parseName_eq_ok_iff {position : ℕ} {cs name rest : List Char} :
    parseName position cs = .ok (name, rest) ↔
      cs = name ++ rest ∧ name ≠ [] ∧ (∀ c ∈ name, NameLetter c) ∧
        Stops Segment.isNameChar rest := by
  constructor
  · intro h
    unfold parseName at h
    simp only at h
    split at h
    · split at h
      · split at h <;> cases h
      · cases h
    · rename_i hne
      cases h
      refine ⟨List.takeWhile_append_dropWhile.symm, by simpa using hne, fun c hc => ?_,
        stops_dropWhile _ cs⟩
      exact isNameChar_iff.mp (List.all_eq_true.mp List.all_takeWhile c hc)
  · rintro ⟨rfl, hne, hvalid, hstops⟩
    obtain ⟨htake, hdrop⟩ := span_append (isNameChar_of_mem_letters hvalid) hstops
    unfold parseName
    simp only [htake, hdrop]
    rw [if_neg (by simpa using hne)]

/-- A name after a dot is read. -/
theorem parseFrom_dot_name {letters rest : List Char} (hne : letters ≠ [])
    (hvalid : ∀ c ∈ letters, NameLetter c) (hstops : Stops Segment.isNameChar rest)
    (position : ℕ) :
    parseFrom true position ('.' :: (letters ++ rest)) =
      (parseFrom true (position + (letters.length + 1)) rest).map
        (.field (String.ofList letters) :: ·) := by
  have hname : parseName (position + 1) (letters ++ rest) = .ok (letters, rest) :=
    parseName_eq_ok_iff.mpr ⟨rfl, hne, hvalid, hstops⟩
  rw [parseFrom, if_pos rfl]
  split
  · rename_i e he
    rw [hname] at he
    cases he
  · rename_i name after hok
    rw [hname] at hok
    cases hok
    rw [Nat.add_assoc, Nat.add_comm 1]

/-- A name that stands first is read. -/
theorem parseFrom_first_name {letters rest : List Char} (hne : letters ≠ [])
    (hvalid : ∀ c ∈ letters, NameLetter c) (hstops : Stops Segment.isNameChar rest)
    (position : ℕ) :
    parseFrom false position (letters ++ rest) =
      (parseFrom true (position + letters.length) rest).map
        (.field (String.ofList letters) :: ·) := by
  have hname : parseName position (letters ++ rest) = .ok (letters, rest) :=
    parseName_eq_ok_iff.mpr ⟨rfl, hne, hvalid, hstops⟩
  obtain ⟨c, more, rfl⟩ := List.exists_cons_of_ne_nil hne
  -- The first character of a name is neither a bracket nor a dot.
  have hbracket : c ≠ '[' := ne_of_nameLetter (by decide) (hvalid c List.mem_cons_self)
  have hdot : c ≠ '.' := ne_of_nameLetter (by decide) (hvalid c List.mem_cons_self)
  rw [List.cons_append] at hname ⊢
  rw [parseFrom.eq_4 _ _ _ _ hbracket hdot, if_neg Bool.false_ne_true]
  split
  · rename_i e he
    rw [hname] at he
    cases he
  · rename_i name after hok
    rw [hname] at hok
    cases hok
    rfl

/-- An index is read, wherever it stands. -/
theorem parseFrom_index {digits : List Char} (hne : digits ≠ [])
    (hvalid : ∀ c ∈ digits, DecimalDigit c) (hbound : Nat.ofDigitChars 10 digits 0 ≤ 2 ^ 64 - 1)
    (started : Bool) (position : ℕ) (rest : List Char) :
    parseFrom started position ('[' :: (digits ++ ']' :: rest)) =
      (parseFrom true (position + (digits.length + 2)) rest).map
        (.index (Nat.ofDigitChars 10 digits 0) :: ·) := by
  obtain ⟨htake, hdrop⟩ := span_append (ne_bracket_of_mem_digits hvalid) (stops_bracket rest)
  have hvalue : Segment.indexValue? digits = some (Nat.ofDigitChars 10 digits 0) :=
    indexValue?_eq_some_iff.mpr ⟨⟨hne, hvalid⟩, hbound, rfl⟩
  rw [parseFrom, htake]
  split
  · rename_i hnone
    rw [hdrop] at hnone
    cases hnone
  · rename_i after hafter
    rw [hdrop] at hafter
    cases hafter
    rw [hvalue]
    rfl

/-- **A token ends before a text**: a name does not go on there, and an index has its bracket. -/
def Token.EndsBefore : Token → List Char → Prop
  | .name _ _ _, rest => Stops Segment.isNameChar rest
  | .index _ _ _ _, _ => True

theorem Token.endsBefore_of_stops (t : Token) {rest : List Char}
    (h : Stops Segment.isNameChar rest) : t.EndsBefore rest := by
  cases t with
  | name => exact h
  | index => exact trivial

/-- **A step is read from what was written of it**, whatever follows, as long as that does not
prolong a name. -/
theorem parseFrom_spell (t : Token) (started : Bool) (position : ℕ) {rest : List Char}
    (hends : t.EndsBefore rest) :
    parseFrom started position (t.spell started ++ rest) =
      (parseFrom true (position + (t.spell started).length) rest).map (t.segment :: ·) := by
  cases t with
  | name letters hne hvalid =>
    cases started with
    | true => exact parseFrom_dot_name hne hvalid hends position
    | false => exact parseFrom_first_name hne hvalid hends position
  | index digits hne hvalid hbound =>
    have htext : (Token.index digits hne hvalid hbound).spell started ++ rest =
        '[' :: (digits ++ ']' :: rest) := by
      simp [Token.spell]
    have hlength : ((Token.index digits hne hvalid hbound).spell started).length =
        digits.length + 2 := by
      simp [Token.spell]
    rw [htext, hlength]
    exact parseFrom_index hne hvalid hbound started position rest

/-! ### All steps -/

/-- **Steps are read from what was written of them.** -/
theorem parseFrom_spell_eq_ok (ts : List Token) (started : Bool) (position : ℕ) :
    parseFrom started position (spell started ts) = .ok (ts.map Token.segment) := by
  induction ts generalizing started position with
  | nil => rw [spell, parseFrom, List.map_nil]
  | cons t more ih =>
    rw [spell, parseFrom_spell t started position (t.endsBefore_of_stops (stops_spell more)), ih]
    rfl

/-- **What is read was written so**: by induction on the reading, one token for each step. -/
theorem exists_tokens_of_parseFrom_eq_ok {started : Bool} {position : ℕ} {cs : List Char}
    {p : FieldPath} (h : parseFrom started position cs = .ok p) :
    ∃ ts : List Token, spell started ts = cs ∧ ts.map Token.segment = p := by
  fun_induction parseFrom started position cs generalizing p with
  | case1 started position =>
    cases h
    exact ⟨[], rfl, rfl⟩
  | case2 => cases h
  | case3 => cases h
  | case4 started position inside digits head after hafter i hvalue =>
    rename_i ih
    obtain ⟨p', hp', rfl⟩ := except_map_eq_ok_iff.mp h
    obtain ⟨ts, rfl, rfl⟩ := ih hp'
    obtain ⟨⟨hne, hvalid⟩, hbound, rfl⟩ := indexValue?_eq_some_iff.mp hvalue
    -- Reading stopped at a bracket, so a bracket follows the digits.
    have hinside : inside = digits ++ ']' :: spell true ts := eq_append_of_dropWhile_bracket hafter
    refine ⟨.index digits hne hvalid hbound :: ts, ?_, rfl⟩
    rw [hinside]
    simp [spell, Token.spell]
  | case5 => cases h
  | case6 position more name rest hname ih =>
    obtain ⟨p', hp', rfl⟩ := except_map_eq_ok_iff.mp h
    obtain ⟨ts, rfl, rfl⟩ := ih hp'
    obtain ⟨rfl, hne, hvalid, -⟩ := parseName_eq_ok_iff.mp hname
    exact ⟨.name name hne hvalid :: ts, rfl, rfl⟩
  | case7 => cases h
  | case8 => cases h
  | case9 => cases h
  | case10 started position c more hbracket hdot hstarted name rest hname ih =>
    obtain ⟨p', hp', rfl⟩ := except_map_eq_ok_iff.mp h
    obtain ⟨ts, rfl, rfl⟩ := ih hp'
    obtain ⟨hmore, hne, hvalid, -⟩ := parseName_eq_ok_iff.mp hname
    refine ⟨.name name hne hvalid :: ts, ?_, rfl⟩
    rw [hmore, Bool.eq_false_iff.mpr hstarted]
    rfl

/-! ### One derivation for each text -/

/-- The first character of what is written says what kind of step it is. -/
theorem Token.head?_spell_name {letters : List Char} (hne : letters ≠ [])
    (hvalid : ∀ c ∈ letters, NameLetter c) (started : Bool) (rest : List Char) :
    (Token.name letters hne hvalid).spell started ++ rest ≠ [] ∧
      ((Token.name letters hne hvalid).spell started ++ rest).head? ≠ some '[' := by
  obtain ⟨c, more, rfl⟩ := List.exists_cons_of_ne_nil hne
  have hbracket : c ≠ '[' := ne_of_nameLetter (by decide) (hvalid c List.mem_cons_self)
  cases started with
  | true => simp [spell]
  | false => simp [spell, hbracket]

/-- **Two tokens that are written alike are the same**, whatever follows them. -/
theorem Token.eq_of_spell_append {t t' : Token} {started : Bool} {rest rest' : List Char}
    (hrest : Stops Segment.isNameChar rest) (hrest' : Stops Segment.isNameChar rest')
    (h : t.spell started ++ rest = t'.spell started ++ rest') : t = t' ∧ rest = rest' := by
  cases t with
  | name letters hne hvalid =>
    cases t' with
    | name letters' hne' hvalid' =>
      have htexts : letters ++ rest = letters' ++ rest' := by
        cases started with
        | true => exact (List.cons.inj h).2
        | false => exact h
      obtain ⟨htake, hdrop⟩ := span_append (isNameChar_of_mem_letters hvalid) hrest
      obtain ⟨htake', hdrop'⟩ := span_append (isNameChar_of_mem_letters hvalid') hrest'
      obtain rfl : letters = letters' := by rw [← htake, htexts, htake']
      exact ⟨rfl, by rw [← hdrop, htexts, hdrop']⟩
    | index digits' hne' hvalid' hbound' =>
      refine absurd ?_ (Token.head?_spell_name hne hvalid started rest).2
      rw [h]
      rfl
  | index digits hne hvalid hbound =>
    cases t' with
    | name letters' hne' hvalid' =>
      refine absurd ?_ (Token.head?_spell_name hne' hvalid' started rest').2
      rw [← h]
      rfl
    | index digits' hne' hvalid' hbound' =>
      have htexts : digits ++ ']' :: rest = digits' ++ ']' :: rest' := by
        simpa [spell] using h
      obtain ⟨htake, hdrop⟩ := span_append (ne_bracket_of_mem_digits hvalid) (stops_bracket rest)
      obtain ⟨htake', hdrop'⟩ :=
        span_append (ne_bracket_of_mem_digits hvalid') (stops_bracket rest')
      obtain rfl : digits = digits' := by rw [← htake, htexts, htake']
      refine ⟨rfl, ?_⟩
      have hrests : ']' :: rest = ']' :: rest' := by rw [← hdrop, htexts, hdrop']
      exact (List.cons.inj hrests).2

theorem Token.spell_ne_nil (t : Token) (started : Bool) : t.spell started ≠ [] := by
  cases t with
  | name letters hne hvalid =>
    have h := (Token.head?_spell_name hne hvalid started []).1
    rwa [List.append_nil] at h
  | index => exact List.cons_ne_nil _ _

theorem spell_eq_nil_iff {started : Bool} {ts : List Token} : spell started ts = [] ↔ ts = [] := by
  cases ts with
  | nil => simp [spell]
  | cons t more => simp [spell, t.spell_ne_nil started]

/-- **No text has two derivations.** -/
theorem spell_injective (started : Bool) {ts ts' : List Token}
    (h : spell started ts = spell started ts') : ts = ts' := by
  induction ts generalizing started ts' with
  | nil => exact (spell_eq_nil_iff.mp h.symm).symm
  | cons t more ih =>
    cases ts' with
    | nil => exact spell_eq_nil_iff.mp h
    | cons t' more' =>
      obtain ⟨rfl, hmore⟩ := Token.eq_of_spell_append (stops_spell more) (stops_spell more') h
      rw [ih true hmore]

/-! ### The grammar is what is read -/

/-- A text is read as a path just when its characters are those of some tokens of the path. -/
theorem parse_eq_ok_iff {text : String} {p : FieldPath} :
    parse text = .ok p ↔
      ∃ ts : List Token, ts ≠ [] ∧ spell false ts = text.toList ∧ ts.map Token.segment = p := by
  rw [parse]
  by_cases hempty : text.isEmpty
  · rw [if_pos hempty]
    rw [String.isEmpty_iff] at hempty
    subst hempty
    constructor
    · intro h
      cases h
    · rintro ⟨ts, hne, htext, -⟩
      exact absurd (spell_eq_nil_iff.mp htext) hne
  · rw [if_neg hempty]
    constructor
    · intro h
      obtain ⟨ts, htext, hpath⟩ := exists_tokens_of_parseFrom_eq_ok h
      refine ⟨ts, ?_, htext, hpath⟩
      rintro rfl
      rw [String.isEmpty_iff] at hempty
      exact hempty (String.toList_inj.mp htext.symm)
    · rintro ⟨ts, -, htext, rfl⟩
      rw [← htext, parseFrom_spell_eq_ok]

/-- A path has at most as many steps as its text has characters. -/
theorem length_le_length_spell (started : Bool) (ts : List Token) :
    ts.length ≤ (spell started ts).length := by
  induction ts generalizing started with
  | nil => exact Nat.le_refl 0
  | cons t more ih =>
    have hpos : 0 < (t.spell started).length := List.length_pos_iff.mpr (t.spell_ne_nil started)
    have hmore := ih true
    rw [spell, List.length_append, List.length_cons]
    omega

/-- **The reader accepts its grammar.** A text is read as a path if and only if it is derived by the
grammar, and the path is that of the derivation: names as they are written, indices as numbers. A
text has at most one derivation. The reader takes at least one character for each step, so it is
done after as many rounds as the text has characters. -/
theorem parse_eq_ok_iff_derivation :
    (∀ (text : String) (p : FieldPath),
      parse text = .ok p ↔ ∃ d : Derivation, d.text = text ∧ d.path = p) ∧
    (∀ d d' : Derivation, d.text = d'.text → d = d') ∧
    ∀ (text : String) (p : FieldPath), parse text = .ok p → p.length ≤ text.length := by
  refine ⟨fun text p => ?_, fun d d' h => ?_, fun text p h => ?_⟩
  · rw [parse_eq_ok_iff]
    constructor
    · rintro ⟨ts, hne, htext, hpath⟩
      obtain ⟨t, more, rfl⟩ := List.exists_cons_of_ne_nil hne
      refine ⟨⟨t, more⟩, ?_, hpath⟩
      rw [Derivation.text, htext, String.ofList_toList]
    · rintro ⟨d, rfl, rfl⟩
      exact ⟨d.first :: d.rest, List.cons_ne_nil _ _, by rw [Derivation.text, String.toList_ofList],
        rfl⟩
  · have htexts : spell false (d.first :: d.rest) = spell false (d'.first :: d'.rest) :=
      String.ofList_injective h
    obtain ⟨hfirst, hrest⟩ := List.cons.inj (spell_injective false htexts)
    cases d
    cases d'
    cases hfirst
    cases hrest
    rfl
  · obtain ⟨ts, -, htext, rfl⟩ := parse_eq_ok_iff.mp h
    rw [List.length_map, ← String.length_toList, ← htext]
    exact length_le_length_spell false ts

/-- A name. -/
def Token.items : Token :=
  .name ['i', 't', 'e', 'm', 's'] (by decide) (List.forall_iff_forall_mem.mp (by decide))

/-- An index with leading zeros. -/
def Token.paddedSeven : Token :=
  .index ['0', '0', '7'] (by decide) (List.forall_iff_forall_mem.mp (by decide)) (by decide)

/-- The derivation of a name, an index with leading zeros and a name. -/
def itemsDerivation : Derivation where
  first := .items
  rest := [.paddedSeven,
    .name ['i', 'd'] (by decide) (List.forall_iff_forall_mem.mp (by decide))]

/-- The zeros before an index belong to its derivation, but not to its path. -/
theorem items_parse_eq_ok :
    parse "items[007].id" = .ok [.field "items", .index 7, .field "id"] ∧
      (∀ d : Derivation, d.text = "items[007].id" → d = itemsDerivation) ∧
      [Segment.field "items", .index 7, .field "id"].length ≤ "items[007].id".length := by
  obtain ⟨hread, hone, hlength⟩ := parse_eq_ok_iff_derivation
  have htext : itemsDerivation.text = "items[007].id" := rfl
  have hparse : parse "items[007].id" = .ok [.field "items", .index 7, .field "id"] :=
    (hread _ _).mpr ⟨itemsDerivation, htext, rfl⟩
  exact ⟨hparse, fun d hd => hone d itemsDerivation (hd.trans htext.symm), hlength _ _ hparse⟩

end CallChain.FieldPath
