import CallChain.Tool.Name
import Mathlib.Data.List.Basic
import Mathlib.Data.String.Basic

/-!
# The form of names

A name made from a text consists of words: the runs of ASCII letters and digits of the text, in
lower case (`CallChain.words`), with an underscore between two of them
(`CallChain.toList_toolName`). So it has the form of names (`CallChain.NameForm`) when the text has
a letter or a digit (`CallChain.Nameable`), and is empty when it has none
(`CallChain.nameForm_toolName_iff`, `CallChain.toolName_eq_empty_iff`).

The text is gone through from left to right. What is appended to a name that has been started
depends on whether the word at hand goes on or a separator was passed; there is one equation for
each case (`CallChain.toolNameFrom_started`).
-/

set_option autoImplicit false

namespace CallChain

/-! ### The form -/

/-- A small letter or a digit. -/
def isNameChar (c : Char) : Bool := c.isLower || c.isDigit

/-- **The form of names**: words of small letters and digits, at least one of them, with an
underscore between two. -/
def NameForm (name : String) : Prop :=
  ∃ words : List (List Char), words ≠ [] ∧
    (∀ w ∈ words, w ≠ [] ∧ ∀ c ∈ w, isNameChar c = true) ∧
    name.toList = ['_'].intercalate words

/-- **A text that a name can be made of**: it has an ASCII letter or digit. -/
def Nameable (text : String) : Prop := ∃ c ∈ text.toList, c.isAlphanum = true

theorem intercalate_cons (w : List Char) (ws : List (List Char)) :
    ['_'].intercalate (w :: ws) = w ++ ws.flatMap ('_' :: ·) := by
  induction ws generalizing w with
  | nil => simp
  | cons v more ih => rw [List.intercalate_cons_cons, ih, List.flatMap_cons]; simp

/-- There is a word, and it has a character. -/
theorem not_nameForm_empty : ¬NameForm "" := by
  rintro ⟨words, hne, hwords, hempty⟩
  obtain ⟨w, ws, rfl⟩ := List.exists_cons_of_ne_nil hne
  rw [intercalate_cons] at hempty
  exact (hwords w List.mem_cons_self).1 (List.append_eq_nil_iff.mp hempty.symm).1

/-- A letter or a digit is a small letter or a digit in lower case. -/
theorem isNameChar_toLower {c : Char} (hc : c.isAlphanum = true) :
    isNameChar c.toLower = true := by
  have hlt : c.toNat < 128 := by
    have halphanum : c.isAlphanum = (c.isUpper || c.isLower || c.isDigit) := rfl
    have hupper : c.isUpper = decide ('A'.val ≤ c.val ∧ c.val ≤ 'Z'.val) := rfl
    have hlower : c.isLower = (decide ('a'.val ≤ c.val) && decide (c.val ≤ 'z'.val)) := rfl
    simp only [halphanum, hupper, hlower, Char.isDigit, Bool.or_eq_true, Bool.and_eq_true,
      decide_eq_true_eq, UInt32.le_iff_toNat_le, ge_iff_le] at hc
    have hvalue : c.toNat = c.val.toNat := rfl
    have hbounds : 'Z'.val.toNat < 128 ∧ 'z'.val.toNat < 128 ∧ '9'.val.toNat < 128 := by decide
    omega
  have hall : ∀ n < 128, (Char.ofNat n).isAlphanum = true →
      isNameChar (Char.ofNat n).toLower = true := by decide
  have h := hall c.toNat hlt
  rw [Char.ofNat_toNat] at h
  exact h hc

/-! ### Words -/

/-- Pieces of a text as words: those that are not empty, in lower case. -/
def wordsOf (pieces : List (List Char)) : List (List Char) :=
  (pieces.filter (· ≠ [])).map (·.map Char.toLower)

/-- The pieces of a text between the characters that are neither letters nor digits. -/
def pieces (cs : List Char) : List (List Char) := cs.splitOnP (fun c => !c.isAlphanum)

/-- **The words of a text**: its runs of ASCII letters and digits, in lower case. -/
def words (cs : List Char) : List (List Char) := wordsOf (pieces cs)

theorem wordsOf_nil_cons (ps : List (List Char)) : wordsOf ([] :: ps) = wordsOf ps := rfl

theorem wordsOf_cons_cons (c : Char) (p : List Char) (ps : List (List Char)) :
    wordsOf ((c :: p) :: ps) = (c.toLower :: p.map Char.toLower) :: wordsOf ps := rfl

theorem pieces_cons_of_not {c : Char} (hc : c.isAlphanum = false) (cs : List Char) :
    pieces (c :: cs) = [] :: pieces cs := by
  rw [pieces, List.splitOnP_cons_eq_if_modifyHead, if_pos (by rw [hc]; rfl), pieces]

/-- A letter or a digit is put before the first piece. -/
theorem exists_pieces_cons {c : Char} (hc : c.isAlphanum = true) (cs : List Char) :
    ∃ p ps, pieces cs = p :: ps ∧ pieces (c :: cs) = (c :: p) :: ps := by
  obtain ⟨p, ps, hcs⟩ := List.exists_cons_of_ne_nil (List.splitOnP_ne_nil (!·.isAlphanum) cs)
  refine ⟨p, ps, hcs, ?_⟩
  rw [pieces, List.splitOnP_cons_eq_if_modifyHead, if_neg (by simp [hc]), hcs,
    List.modifyHead_cons]

theorem isAlphanum_of_mem_pieces {cs p : List Char} (hp : p ∈ pieces cs) :
    ∀ c ∈ p, c.isAlphanum = true := by
  induction cs generalizing p with
  | nil =>
    obtain rfl := List.mem_singleton.mp hp
    nofun
  | cons c rest ih =>
    cases hc : c.isAlphanum with
    | false =>
      rw [pieces_cons_of_not hc] at hp
      rcases List.mem_cons.mp hp with rfl | hp
      · nofun
      · exact ih hp
    | true =>
      obtain ⟨q, qs, hrest, hcons⟩ := exists_pieces_cons hc rest
      rw [hcons] at hp
      rw [hrest] at ih
      rcases List.mem_cons.mp hp with rfl | hp
      · exact List.forall_mem_cons.mpr ⟨hc, ih List.mem_cons_self⟩
      · exact ih (List.mem_cons_of_mem _ hp)

/-- Words are not empty, and consist of small letters and digits. -/
theorem isNameChar_of_mem_words {cs w : List Char} (hw : w ∈ words cs) :
    w ≠ [] ∧ ∀ c ∈ w, isNameChar c = true := by
  obtain ⟨p, hp, rfl⟩ := List.mem_map.mp hw
  obtain ⟨hp, hne⟩ := List.mem_filter.mp hp
  refine ⟨fun hnil => of_decide_eq_true hne (List.map_eq_nil_iff.mp hnil), fun c hc => ?_⟩
  obtain ⟨d, hd, rfl⟩ := List.mem_map.mp hc
  exact isNameChar_toLower (isAlphanum_of_mem_pieces hp d hd)

/-- **A text has words if and only if it has a letter or a digit.** -/
theorem words_ne_nil_iff {cs : List Char} :
    words cs ≠ [] ↔ ∃ c ∈ cs, c.isAlphanum = true := by
  induction cs with
  | nil => simp [words, pieces, wordsOf]
  | cons c rest ih =>
    cases hc : c.isAlphanum with
    | false =>
      have hsame : words (c :: rest) = words rest := by
        rw [words, pieces_cons_of_not hc, wordsOf_nil_cons, words]
      rw [hsame, ih, List.exists_mem_cons_iff]
      simp [hc]
    | true =>
      obtain ⟨p, ps, -, hcons⟩ := exists_pieces_cons hc rest
      rw [words, hcons, wordsOf_cons_cons]
      simp [hc]

/-! ### Names -/

/-- **What is appended to a name that has been started.** The word at hand goes on with the first
piece of the rest of the text; behind a separator the first piece is a word of its own. -/
theorem toolNameFrom_started {cs p : List Char} {ps : List (List Char)} (h : pieces cs = p :: ps) :
    toolNameFrom true false cs = p.map Char.toLower ++ (wordsOf ps).flatMap ('_' :: ·) ∧
      toolNameFrom true true cs = (wordsOf (p :: ps)).flatMap ('_' :: ·) := by
  induction cs generalizing p ps with
  | nil =>
    obtain ⟨rfl, rfl⟩ := List.cons.inj h
    exact ⟨rfl, rfl⟩
  | cons c rest ih =>
    cases hc : c.isAlphanum with
    | false =>
      rw [pieces_cons_of_not hc] at h
      obtain ⟨rfl, rfl⟩ := List.cons.inj h
      obtain ⟨q, qs, hrest⟩ :=
        List.exists_cons_of_ne_nil (List.splitOnP_ne_nil (!·.isAlphanum) rest)
      have hlater : toolNameFrom true true rest = (wordsOf (pieces rest)).flatMap ('_' :: ·) := by
        rw [(ih hrest).2, pieces, hrest]
      rw [toolNameFrom, toolNameFrom, hc, if_neg Bool.false_ne_true, if_neg Bool.false_ne_true]
      exact ⟨hlater, hlater⟩
    | true =>
      obtain ⟨q, qs, hrest, hcons⟩ := exists_pieces_cons hc rest
      rw [hcons] at h
      obtain ⟨rfl, rfl⟩ := List.cons.inj h
      have hlater := (ih hrest).1
      rw [toolNameFrom, toolNameFrom, hc, if_pos rfl, if_pos rfl, hlater, wordsOf_cons_cons]
      exact ⟨rfl, rfl⟩

/-- What is made of a text from its start are its words; a separator that was passed before makes no
difference. -/
theorem toolNameFrom_eq (pending : Bool) (cs : List Char) :
    toolNameFrom false pending cs = ['_'].intercalate (words cs) := by
  induction cs generalizing pending with
  | nil => rfl
  | cons c rest ih =>
    cases hc : c.isAlphanum with
    | false =>
      rw [toolNameFrom, hc, if_neg Bool.false_ne_true, ih, words, words, pieces_cons_of_not hc,
        wordsOf_nil_cons]
    | true =>
      obtain ⟨p, ps, hrest, hcons⟩ := exists_pieces_cons hc rest
      rw [toolNameFrom, hc, if_pos rfl, Bool.and_false, if_neg Bool.false_ne_true,
        (toolNameFrom_started hrest).1, words, hcons, wordsOf_cons_cons, intercalate_cons]
      rfl

/-- **A name consists of the words of the text that it is made from.** -/
theorem toList_toolName (text : String) :
    (toolName text).toList = ['_'].intercalate (words text.toList) := by
  rw [toolName, String.toList_ofList, toolNameFrom_eq]

/-- **A name has the form of names** if and only if the text has a letter or a digit. -/
theorem nameForm_toolName_iff {text : String} : NameForm (toolName text) ↔ Nameable text := by
  rw [Nameable, ← words_ne_nil_iff]
  constructor
  · intro hform hnil
    have hempty : toolName text = "" := by
      rw [← String.toList_eq_nil_iff, toList_toolName, hnil]
      rfl
    exact not_nameForm_empty (hempty ▸ hform)
  · exact fun hne => ⟨words text.toList, hne, fun w hw => isNameChar_of_mem_words hw,
      toList_toolName text⟩

/-- **A name is empty** if and only if the text has neither a letter nor a digit. -/
theorem toolName_eq_empty_iff {text : String} : toolName text = "" ↔ ¬Nameable text := by
  constructor
  · exact fun hempty hnameable =>
      not_nameForm_empty (hempty ▸ nameForm_toolName_iff.mpr hnameable)
  · intro h
    have hnil : words text.toList = [] := by
      rwa [Nameable, ← words_ne_nil_iff, not_not] at h
    rw [← String.toList_eq_nil_iff, toList_toolName, hnil]
    rfl

end CallChain
