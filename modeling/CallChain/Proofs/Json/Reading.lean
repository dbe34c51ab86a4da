import CallChain.Json.Reader
import CallChain.Proofs.Json.Shape
import Mathlib.Data.List.Basic
import Mathlib.Data.String.Basic
import Mathlib.Tactic.IntervalCases

/-!
# Reading what was printed

The compact text of a JSON value is read back as that value, and reading stops right behind it
(`CallChain.Json.readsBack`). Two things can keep a value from coming back: containers nested deeper
than the reader goes, and a double whose text is read as another double, since the reader rounds
more than once. The first is a bound on `CallChain.Json.nesting`; the second is asked of each number
by itself (`CallChain.Number.ReadsBack`), and whole numbers of sixty-four bits meet it
(`CallChain.Number.readsBack_int`).

The reader is followed through the text from left to right. Each part of it is shown to take what
the printer wrote of a part of the value, whatever text follows that a value can be followed by
(`CallChain.Json.Ends`); where it arrives is of no account.
-/

set_option autoImplicit false

namespace CallChain

/-! ### Cursors -/

namespace Cursor

theorem step_cons (c : Char) (rest : List Char) (m : Mark) :
    step ⟨c :: rest, m⟩ = ⟨rest, m.advance c⟩ := rfl

theorem blanks_cons {c : Char} (hc : isBlank c = false) (rest : List Char) (m : Mark) :
    blanks ⟨c :: rest, m⟩ = ⟨c :: rest, m⟩ := by
  simp [blanks, skipBlanks, hc]

/-- The digits of a number are taken as far as they go. -/
theorem exists_digits_append {ds rest : List Char} (hds : ∀ c ∈ ds, c.isDigit = true)
    (hrest : ∀ c ∈ rest.head?, c.isDigit = false) (m : Mark) :
    ∃ m', digits (ds ++ rest) m = (ds, ⟨rest, m'⟩) := by
  induction ds generalizing m with
  | nil =>
    cases rest with
    | nil => exact ⟨m, rfl⟩
    | cons c more =>
      have hc : c.isDigit = false := hrest c rfl
      exact ⟨m, by simp [digits, hc]⟩
  | cons d more ih =>
    obtain ⟨m', hm'⟩ := ih (fun c hc => hds c (List.mem_cons_of_mem _ hc)) (m.advance d)
    have hd : d.isDigit = true := hds d List.mem_cons_self
    exact ⟨m', by simp [digits, hd, hm']⟩

end Cursor

/-! ### What may follow a value -/

namespace Json

/-- **What may follow a value in a text**: nothing, a comma or the end of a container. -/
def Ends (rest : List Char) : Prop :=
  rest = [] ∨ ∃ more, rest = ',' :: more ∨ rest = ']' :: more ∨ rest = '\x7d' :: more

theorem Ends.head?_not_isDigit {rest : List Char} (h : Ends rest) :
    ∀ c ∈ rest.head?, c.isDigit = false := by
  rintro c hc
  rcases h with rfl | ⟨more, rfl | rfl | rfl⟩
  · cases hc
  · obtain rfl : ',' = c := Option.some_inj.mp hc
    decide
  · obtain rfl : ']' = c := Option.some_inj.mp hc
    decide
  · obtain rfl : '\x7d' = c := Option.some_inj.mp hc
    decide

end Json

/-! ### Numbers -/

/-- **A number comes back from its text**, whatever the text goes on with. -/
def Number.ReadsBack (n : Number) : Prop :=
  ∀ (rest : List Char) (m : Mark), Json.Ends rest →
    ∃ m', Json.readNumber ⟨n.text.toList ++ rest, m⟩ = .ok (n, ⟨rest, m'⟩)

namespace Json

theorem le_ofDigitChars (ds : List Char) (n : ℕ) : n ≤ Nat.ofDigitChars 10 ds n := by
  induction ds generalizing n with
  | nil => exact Nat.le_refl n
  | cons d more ih =>
    rw [Nat.ofDigitChars_cons]
    have hmore := ih (10 * n + (d.toNat - '0'.toNat))
    omega

/-- Digits within sixty-four bits are all taken for the significand. -/
theorem significand_eq {ds : List Char} {n : ℕ} (h : Nat.ofDigitChars 10 ds n ≤ wordMax) :
    significand n ds = (Nat.ofDigitChars 10 ds n, []) := by
  induction ds generalizing n with
  | nil => rfl
  | cons d more ih =>
    rw [Nat.ofDigitChars_cons] at h ⊢
    have hstep : n * 10 + digitValue d = 10 * n + (d.toNat - '0'.toNat) := by
      rw [digitValue, Nat.mul_comm]
    have hle : n * 10 + digitValue d ≤ wordMax := by
      rw [hstep]
      exact Nat.le_trans (le_ofDigitChars more _) h
    rw [significand]
    simp only [if_pos hle]
    rw [hstep]
    exact ih h

/-- The first digit of a number that is not zero is not zero. -/
theorem head?_toDigits_ne {n : ℕ} (hn : n ≠ 0) : (Nat.toDigits 10 n).head? ≠ some '0' := by
  induction n using Nat.strongRecOn with
  | ind n ih =>
    by_cases hlt : n < 10
    · rw [Nat.toDigits_of_lt_base hlt]
      interval_cases n
      · exact absurd rfl hn
      all_goals decide
    · rw [Nat.toDigits_of_base_le (by decide) (by omega)]
      have hne : Nat.toDigits 10 (n / 10) ≠ [] := Nat.toDigits_ne_nil
      rw [List.head?_append_of_ne_nil _ hne]
      exact ih (n / 10) (by omega) (by omega)

/-- **Digits are read as one number**, up to their end. One zero is taken by itself; all other
digits are taken together. -/
theorem exists_readUnsigned {d : Char} {more rest : List Char} {n : ℕ}
    (hdigits : ∀ c ∈ d :: more, c.isDigit = true) (hzero : d = '0' → more = [])
    (hvalue : significand 0 (d :: more) = (n, [])) (hrest : Ends rest) (negative : Bool)
    (m : Mark) :
    ∃ m', readUnsigned negative ⟨d :: more ++ rest, m⟩ =
      if negative then
        if n = 0 ∨ 2 ^ 63 < n then finish true n 0 ⟨rest, m'⟩
        else .ok (.int (-(n : ℤ)), ⟨rest, m'⟩)
      else .ok (.int n, ⟨rest, m'⟩) := by
  have hd : d.isDigit = true := hdigits d List.mem_cons_self
  by_cases h0 : d = '0'
  · obtain rfl := hzero h0
    subst h0
    refine ⟨m.advance '0', ?_⟩
    rcases hrest with rfl | ⟨after, rfl | rfl | rfl⟩
    all_goals simp [readUnsigned, Cursor.step, hvalue]
  · obtain ⟨m', hm'⟩ := Cursor.exists_digits_append hdigits hrest.head?_not_isDigit m
    rw [List.cons_append] at hm'
    refine ⟨m', ?_⟩
    rcases hrest with rfl | ⟨after, rfl | rfl | rfl⟩
    · rw [List.append_nil] at hm'
      simp [readUnsigned, hd, h0, hm', hvalue]
    all_goals simp [readUnsigned, hd, h0, hm', hvalue]

theorem exists_readUnsigned_toDigits {n : ℕ} (hn : n ≤ wordMax) {rest : List Char}
    (hrest : Ends rest) (negative : Bool) (m : Mark) :
    ∃ m', readUnsigned negative ⟨Nat.toDigits 10 n ++ rest, m⟩ =
      if negative then
        if n = 0 ∨ 2 ^ 63 < n then finish true n 0 ⟨rest, m'⟩
        else .ok (.int (-(n : ℤ)), ⟨rest, m'⟩)
      else .ok (.int n, ⟨rest, m'⟩) := by
  have hdigits : ∀ c ∈ Nat.toDigits 10 n, c.isDigit = true :=
    fun c hc => Nat.isDigit_of_mem_toDigits (by decide) (by decide) hc
  have hvalue : Nat.ofDigitChars 10 (Nat.toDigits 10 n) 0 = n :=
    Nat.ofDigitChars_toDigits (by decide) (by decide)
  have hsignificand : significand 0 (Nat.toDigits 10 n) = (n, []) := by
    rw [significand_eq (by rwa [hvalue]), hvalue]
  have hzero : (Nat.toDigits 10 n).head? = some '0' → n = 0 := by
    intro hhead
    by_contra hne
    exact head?_toDigits_ne hne hhead
  obtain ⟨d, more, hcons⟩ := List.exists_cons_of_ne_nil (Nat.toDigits_ne_nil (b := 10) (n := n))
  rw [hcons] at hdigits hsignificand hzero ⊢
  refine exists_readUnsigned hdigits (fun hd => ?_) hsignificand hrest negative m
  obtain rfl : n = 0 := hzero (by rw [hd]; rfl)
  rw [Nat.toDigits_zero] at hcons
  exact (List.cons.inj hcons).2.symm

end Json

/-- **A whole number of sixty-four bits comes back from its text**, with a sign or without. -/
theorem Number.readsBack_int {i : ℤ} (hlow : -2 ^ 63 ≤ i) (hhigh : i < 2 ^ 64) :
    (Number.int i).ReadsBack := by
  intro rest m hrest
  have hmax : Json.wordMax = 2 ^ 64 - 1 := rfl
  cases i with
  | ofNat n =>
    have hn : n ≤ Json.wordMax := by
      rw [Int.ofNat_eq_natCast] at hhigh
      omega
    have htext : (Number.int (Int.ofNat n)).text.toList = Nat.toDigits 10 n := by
      rw [Number.text, Int.toString_eq_repr, Int.repr, Nat.repr_eq_ofList_toDigits,
        String.toList_ofList]
    obtain ⟨m', hm'⟩ := Json.exists_readUnsigned_toDigits hn hrest false m
    refine ⟨m', ?_⟩
    rw [if_neg Bool.false_ne_true] at hm'
    rw [htext, Int.ofNat_eq_natCast, ← hm']
    -- A text of digits does not start with a minus.
    obtain ⟨d, more, hcons⟩ := List.exists_cons_of_ne_nil (Nat.toDigits_ne_nil (b := 10) (n := n))
    have hd : d.isDigit = true := Nat.isDigit_of_mem_toDigits (b := 10) (n := n) (by decide)
      (by decide) (by rw [hcons]; exact List.mem_cons_self)
    have hminus : d ≠ '-' := by
      rintro rfl
      exact absurd hd (by decide)
    rw [hcons, List.cons_append, Json.readNumber]
    split
    · rename_i after heq
      exact absurd (List.cons.inj heq).1 hminus
    · rfl
  | negSucc n =>
    rw [Int.negSucc_eq] at hlow
    have hn : n + 1 ≤ Json.wordMax := by omega
    have htext : (Number.int (Int.negSucc n)).text.toList = '-' :: Nat.toDigits 10 (n + 1) := by
      simp [Number.text, Int.toString_eq_repr, Int.repr, Nat.repr_eq_ofList_toDigits]
    obtain ⟨m', hm'⟩ :=
      Json.exists_readUnsigned_toDigits hn hrest true (m.advance '-')
    refine ⟨m', ?_⟩
    rw [htext, List.cons_append, Json.readNumber]
    rw [if_pos rfl, if_neg (by omega)] at hm'
    exact hm'

/-! ### Strings -/

namespace Json

theorem hexValue?_hexDigit : ∀ n < 16, hexValue? (hexDigit n) = some n := by decide

/-- A control is read from the four digits that it is written with. -/
theorem exists_readUnicode {c : Char} (hc : c.toNat < 32) (tail : List Char) (m : Mark) :
    ∃ m', readUnicode
        ⟨'0' :: '0' :: hexDigit (c.toNat / 16) :: hexDigit (c.toNat % 16) :: tail, m⟩ =
      .ok (c, ⟨tail, m'⟩) := by
  have hzero : hexValue? '0' = some 0 := by decide
  have hhigh := hexValue?_hexDigit (c.toNat / 16) (by omega)
  have hlow := hexValue?_hexDigit (c.toNat % 16) (by omega)
  have hvalue : ((0 * 16 + 0) * 16 + c.toNat / 16) * 16 + c.toNat % 16 = c.toNat := by omega
  -- It is no half of a surrogate pair.
  have hpair : (0xdc00 ≤ c.toNat && c.toNat ≤ 0xdfff) = false := by simp; omega
  have hfirst : (0xd800 ≤ c.toNat && c.toNat ≤ 0xdbff) = false := by simp; omega
  refine ⟨(((m.advance '0').advance '0').advance (hexDigit (c.toNat / 16))).advance
    (hexDigit (c.toNat % 16)), ?_⟩
  simp only [readUnicode, readHex, hzero, hhigh, hlow, hvalue, bind, Except.bind, hpair, hfirst,
    Bool.false_eq_true, if_false, Char.ofNat_toNat]

/-- **A character is read from the form that it has in a string.** -/
theorem exists_readChars_escape (c : Char) (fuel : ℕ) (tail read : List Char) (m : Mark) :
    ∃ m', readChars (fuel + 1) ⟨escape c ++ tail, m⟩ read =
      readChars fuel ⟨tail, m'⟩ (c :: read) := by
  rw [escape]
  split_ifs with hquote hbackslash hb hf hn hr ht hcontrol
  · subst hquote
    exact ⟨_, rfl⟩
  · subst hbackslash
    exact ⟨_, rfl⟩
  · subst hb
    exact ⟨_, rfl⟩
  · subst hf
    exact ⟨_, rfl⟩
  · subst hn
    exact ⟨_, rfl⟩
  · subst hr
    exact ⟨_, rfl⟩
  · subst ht
    exact ⟨_, rfl⟩
  · obtain ⟨m', hm'⟩ := exists_readUnicode hcontrol tail ((m.advance '\\').advance 'u')
    refine ⟨m', ?_⟩
    simp only [List.cons_append, List.nil_append, readChars, Cursor.step_cons, readEscape, hm',
      bind, Except.bind]
  · refine ⟨m.advance c, ?_⟩
    rw [List.cons_append, List.nil_append, readChars.eq_def]
    simp only [Cursor.step_cons, if_neg hcontrol]

/-- The characters of a string are read up to the quote that ends it. -/
theorem exists_readChars (cs : List Char) {fuel : ℕ} (hfuel : cs.length < fuel)
    (tail read : List Char) (m : Mark) :
    ∃ m', readChars fuel ⟨cs.flatMap escape ++ '"' :: tail, m⟩ read =
      .ok (String.ofList (read.reverse ++ cs), ⟨tail, m'⟩) := by
  induction cs generalizing fuel read m with
  | nil =>
    obtain ⟨fuel, rfl⟩ := Nat.exists_eq_succ_of_ne_zero (Nat.ne_of_gt hfuel)
    rw [List.append_nil]
    exact ⟨_, rfl⟩
  | cons c more ih =>
    obtain ⟨fuel, rfl⟩ := Nat.exists_eq_succ_of_ne_zero (Nat.ne_of_gt (Nat.zero_lt_of_lt hfuel))
    rw [List.length_cons] at hfuel
    rw [List.flatMap_cons, List.append_assoc]
    obtain ⟨m₁, hm₁⟩ :=
      exists_readChars_escape c fuel (more.flatMap escape ++ '"' :: tail) read m
    obtain ⟨m', hm'⟩ := ih (Nat.lt_of_succ_lt_succ hfuel) (c :: read) m₁
    refine ⟨m', ?_⟩
    rw [hm₁, hm', List.reverse_cons, List.append_assoc]
    rfl

theorem length_le_length_flatMap_escape (cs : List Char) :
    cs.length ≤ (cs.flatMap escape).length := by
  induction cs with
  | nil => exact Nat.le_refl 0
  | cons c more ih =>
    have hpos : 0 < (escape c).length := by
      rw [escape]
      split_ifs
      all_goals simp
    rw [List.flatMap_cons, List.length_append, List.length_cons]
    omega

/-- **A string is read from its form between quotes**; the first quote has been read. -/
theorem exists_readString (text : String) (tail : List Char) (m : Mark) :
    ∃ m', readString ⟨text.toList.flatMap escape ++ '"' :: tail, m⟩ =
      .ok (text, ⟨tail, m'⟩) := by
  have hfuel : text.toList.length <
      (text.toList.flatMap escape ++ '"' :: tail).length + 1 := by
    have hle := length_le_length_flatMap_escape text.toList
    rw [List.length_append]
    omega
  obtain ⟨m', hm'⟩ := exists_readChars text.toList hfuel tail [] m
  refine ⟨m', ?_⟩
  rw [readString, hm', List.reverse_nil, List.nil_append, String.ofList_toList]

theorem toList_quoted (text : String) :
    (quoted text).toList = '"' :: (text.toList.flatMap escape ++ ['"']) := by
  rw [quoted, String.toList_ofList]
  rfl

/-! ### How deep values nest and which numbers they hold -/

mutual

/-- How deep the containers of a value nest. -/
def nesting : Json → ℕ
  | .arr items => nestingItems items + 1
  | .obj members => nestingMembers members + 1
  | _ => 0

/-- How deep the deepest of some items nests. -/
def nestingItems : List Json → ℕ
  | [] => 0
  | j :: more => max (nesting j) (nestingItems more)

/-- How deep the value of the deepest of some members nests. -/
def nestingMembers : List (String × Json) → ℕ
  | [] => 0
  | (_, j) :: more => max (nesting j) (nestingMembers more)

end

mutual

/-- **All numbers of a value come back from their texts.** -/
def Legible : Json → Prop
  | .num n => n.ReadsBack
  | .arr items => LegibleItems items
  | .obj members => LegibleMembers members
  | _ => True

/-- All numbers of some items come back. -/
def LegibleItems : List Json → Prop
  | [] => True
  | j :: more => Legible j ∧ LegibleItems more

/-- All numbers of the values of some members come back. -/
def LegibleMembers : List (String × Json) → Prop
  | [] => True
  | (_, j) :: more => Legible j ∧ LegibleMembers more

end

/-! ### The text of a container -/

/-- What is left of a container behind one of its parts: the texts of the other parts, each behind
a comma, and the end. -/
def tailChars (close : Char) (texts : List String) : List Char :=
  texts.flatMap (fun t => ',' :: t.toList) ++ [close]

theorem tailChars_nil (close : Char) : tailChars close [] = [close] := rfl

theorem tailChars_cons (close : Char) (t : String) (texts : List String) :
    tailChars close (t :: texts) = ',' :: (t.toList ++ tailChars close texts) := by
  simp [tailChars]

theorem ends_tailChars {close : Char} (hclose : close = ']' ∨ close = '\x7d') (texts : List String)
    (rest : List Char) : Ends (tailChars close texts ++ rest) := by
  cases texts with
  | nil => exact Or.inr ⟨rest, hclose.elim (fun h => Or.inr (Or.inl (h ▸ rfl)))
      (fun h => Or.inr (Or.inr (h ▸ rfl)))⟩
  | cons t more =>
    rw [tailChars_cons]
    exact Or.inr ⟨_, Or.inl rfl⟩

theorem toList_intercalate_comma (t : String) (texts : List String) :
    (",".intercalate (t :: texts)).toList =
      t.toList ++ texts.flatMap (fun u => ',' :: u.toList) := by
  induction texts generalizing t with
  | nil => simp
  | cons u more ih =>
    rw [String.intercalate_cons_cons, String.toList_append, String.toList_append, ih]
    simp

theorem toList_compact_nil_arr : (compact (.arr [])).toList = '[' :: tailChars ']' [] := by
  simp [compact, compactItems, tailChars]

theorem toList_compact_nil_obj : (compact (.obj [])).toList = '\x7b' :: tailChars '\x7d' [] := by
  simp [compact, compactMembers, tailChars]

theorem toList_compact_arr (j : Json) (more : List Json) :
    (compact (.arr (j :: more))).toList =
      '[' :: (j.compact.toList ++ tailChars ']' (compactItems more)) := by
  rw [compact, compactItems, String.toList_append, String.toList_append, toList_intercalate_comma]
  simp [tailChars]

/-- The text of a member. -/
theorem toList_member (k : String) (j : Json) :
    (quoted k ++ ":" ++ compact j).toList =
      '"' :: (k.toList.flatMap escape ++ '"' :: ':' :: j.compact.toList) := by
  simp [toList_quoted]

theorem toList_compact_obj (k : String) (j : Json) (more : List (String × Json)) :
    (compact (.obj ((k, j) :: more))).toList =
      '\x7b' :: ((quoted k ++ ":" ++ compact j).toList ++
        tailChars '\x7d' (compactMembers more)) := by
  rw [compact, compactMembers, String.toList_append, String.toList_append,
    toList_intercalate_comma]
  simp [tailChars]

/-! ### How the text of a value starts -/

/-- **How the text of a value starts**: neither with a blank nor with what ends or separates
values. -/
def Starts (cs : List Char) : Prop :=
  ∃ c more, cs = c :: more ∧ Cursor.isBlank c = false ∧ c ≠ ']' ∧ c ≠ ',' ∧ c ≠ '\x7d'

theorem starts_cons {c : Char} (more : List Char)
    (hc : (Cursor.isBlank c || c = ']' || c = ',' || c = '\x7d') = false) :
    Starts (c :: more) := by
  simp only [Bool.or_eq_false_iff, decide_eq_false_iff_not] at hc
  exact ⟨c, more, rfl, hc.1.1.1, hc.1.1.2, hc.1.2, hc.2⟩

/-- The text of a number that comes back starts with a minus or a digit. -/
theorem exists_text_eq_cons {n : Number} (h : n.ReadsBack) :
    ∃ c more, n.text.toList = c :: more ∧ (c = '-' ∨ c.isDigit = true) := by
  obtain ⟨m', hread⟩ := h [] {} (Or.inl rfl)
  rw [List.append_nil] at hread
  cases htext : n.text.toList with
  | nil =>
    rw [htext] at hread
    cases hread
  | cons c more =>
    refine ⟨c, more, rfl, ?_⟩
    by_contra hno
    obtain ⟨hminus, hdigit⟩ := not_or.mp hno
    rw [htext, readNumber] at hread
    split at hread
    · rename_i heq
      exact hminus (List.cons.inj heq).1
    · simp [readUnsigned, hdigit] at hread

theorem not_special_of_isDigit {c : Char} (h : c = '-' ∨ c.isDigit = true) :
    (Cursor.isBlank c || c = ']' || c = ',' || c = '\x7d') = false ∧
      c ≠ 'n' ∧ c ≠ 't' ∧ c ≠ 'f' ∧ c ≠ '"' ∧ c ≠ '[' ∧ c ≠ '\x7b' := by
  rcases h with rfl | hdigit
  · decide
  · have hne : ∀ d : Char, d.isDigit = false → c ≠ d := by
      rintro d hd rfl
      exact Bool.false_ne_true (hd.symm.trans hdigit)
    simp [Cursor.isBlank, hne _ (by decide : ' '.isDigit = false),
      hne _ (by decide : '\n'.isDigit = false), hne _ (by decide : '\t'.isDigit = false),
      hne _ (by decide : '\r'.isDigit = false), hne _ (by decide : ']'.isDigit = false),
      hne _ (by decide : ','.isDigit = false), hne _ (by decide : '\x7d'.isDigit = false),
      hne _ (by decide : 'n'.isDigit = false), hne _ (by decide : 't'.isDigit = false),
      hne _ (by decide : 'f'.isDigit = false), hne _ (by decide : '"'.isDigit = false),
      hne _ (by decide : '['.isDigit = false), hne _ (by decide : '\x7b'.isDigit = false)]

theorem starts_compact {j : Json} (h : j.Legible) : Starts j.compact.toList := by
  cases j with
  | null => exact starts_cons _ (by decide)
  | bool b =>
    cases b with
    | true => exact starts_cons _ (by decide)
    | false => exact starts_cons _ (by decide)
  | num n =>
    obtain ⟨c, more, htext, hc⟩ := exists_text_eq_cons h
    rw [compact, htext]
    exact starts_cons more (not_special_of_isDigit hc).1
  | str text =>
    rw [compact, toList_quoted]
    exact starts_cons _ (by decide)
  | arr items =>
    cases items with
    | nil =>
      rw [toList_compact_nil_arr]
      exact starts_cons _ (by decide)
    | cons j more =>
      rw [toList_compact_arr]
      exact starts_cons _ (by decide)
  | obj members =>
    cases members with
    | nil =>
      rw [toList_compact_nil_obj]
      exact starts_cons _ (by decide)
    | cons m more =>
      rw [toList_compact_obj]
      exact starts_cons _ (by decide)

theorem Starts.append {cs : List Char} (h : Starts cs) (rest : List Char) :
    Starts (cs ++ rest) := by
  obtain ⟨c, more, rfl, hc⟩ := h
  exact ⟨c, more ++ rest, rfl, hc⟩

theorem Starts.length_pos {cs : List Char} (h : Starts cs) : 0 < cs.length := by
  obtain ⟨c, more, rfl, -⟩ := h
  exact Nat.succ_pos _

/-! ### Scalars -/

theorem exists_readValue_null (fuel depth : ℕ) (rest : List Char) (m : Mark) :
    ∃ s m', readValue (fuel + 1) depth ⟨(compact .null).toList ++ rest, m⟩ =
      (s, some ⟨rest, m'⟩) ∧ s.Holds .null :=
  ⟨_, _, rfl, .scalar .null _⟩

theorem exists_readValue_bool (b : Bool) (fuel depth : ℕ) (rest : List Char) (m : Mark) :
    ∃ s m', readValue (fuel + 1) depth ⟨(compact (.bool b)).toList ++ rest, m⟩ =
      (s, some ⟨rest, m'⟩) ∧ s.Holds (.bool b) := by
  cases b with
  | true => exact ⟨_, _, rfl, .scalar (.bool true) _⟩
  | false => exact ⟨_, _, rfl, .scalar (.bool false) _⟩

theorem exists_readValue_num {n : Number} (h : n.ReadsBack) (fuel depth : ℕ) {rest : List Char}
    (hrest : Ends rest) (m : Mark) :
    ∃ s m', readValue (fuel + 1) depth ⟨(compact (.num n)).toList ++ rest, m⟩ =
      (s, some ⟨rest, m'⟩) ∧ s.Holds (.num n) := by
  obtain ⟨m', hread⟩ := h rest m hrest
  obtain ⟨c, more, htext, hc⟩ := exists_text_eq_cons h
  obtain ⟨hspecial, hn, ht, hf, hquote, hlist, hrecord⟩ := not_special_of_isDigit hc
  have hblank : Cursor.isBlank c = false := by
    simp only [Bool.or_eq_false_iff] at hspecial
    exact hspecial.1.1.1
  have hnumber : (c = '-' || c.isDigit) = true := by simpa using hc
  refine ⟨.scalar (.num n) ⟨m, m'⟩, m', ?_, .scalar (.num n) _⟩
  rw [htext, List.cons_append] at hread
  rw [compact, htext, List.cons_append, readValue]
  simp only [Cursor.blanks_cons hblank, scalarReading, hread, hnumber, if_true]

theorem exists_readValue_str (text : String) (fuel depth : ℕ) (rest : List Char) (m : Mark) :
    ∃ s m', readValue (fuel + 1) depth ⟨(compact (.str text)).toList ++ rest, m⟩ =
      (s, some ⟨rest, m'⟩) ∧ s.Holds (.str text) := by
  obtain ⟨m', hread⟩ := exists_readString text rest (m.advance '"')
  refine ⟨.scalar (.str text) ⟨m, m'⟩, m', ?_, .scalar (.str text) _⟩
  rw [compact, toList_quoted, List.cons_append, List.append_assoc, List.singleton_append,
    readValue]
  simp only [Cursor.blanks_cons (by decide : Cursor.isBlank '"' = false), Cursor.step_cons,
    scalarReading, hread]

/-! ### Containers -/

/-- The first item of a list is read, and then the others. -/
theorem exists_readItems_first {fuel depth : ℕ} {cs : List Char} {m : Mark} {s : Source}
    {after : Cursor} (hstarts : Starts cs)
    (hvalue : readValue fuel depth ⟨cs, m⟩ = (s, some after)) :
    ∃ settled, readItems (fuel + 1) depth true ⟨cs, m⟩ =
      ((s, settled) :: (readItems fuel depth false after).1,
        (readItems fuel depth false after).2) := by
  obtain ⟨c, more, rfl, hblank, hclose, hcomma, -⟩ := hstarts
  refine ⟨after.settleItem.mark, ?_⟩
  rw [readItems]
  simp only [Cursor.blanks_cons hblank, hvalue, if_true]
  split
  · rename_i heq
    cases heq
  · rename_i heq
    exact absurd (List.cons.inj heq).1 hclose
  · rfl
  · rfl

/-- An item behind a comma is read, and then the others. -/
theorem exists_readItems_later {fuel depth : ℕ} {cs : List Char} {m : Mark} {s : Source}
    {after : Cursor} (hstarts : Starts cs)
    (hvalue : readValue fuel depth ⟨cs, m.advance ','⟩ = (s, some after)) :
    ∃ settled, readItems (fuel + 1) depth false ⟨',' :: cs, m⟩ =
      ((s, settled) :: (readItems fuel depth false after).1,
        (readItems fuel depth false after).2) := by
  obtain ⟨c, more, rfl, hblank, hclose, -⟩ := hstarts
  refine ⟨after.settleItem.mark, ?_⟩
  rw [readItems]
  simp only [Cursor.blanks_cons (by decide : Cursor.isBlank ',' = false), Cursor.step_cons,
    Cursor.blanks_cons hblank, hvalue, Bool.false_eq_true, if_false]
  split
  · rename_i heq
    cases heq
  · rename_i heq
    exact absurd (List.cons.inj heq).1 hclose
  · rfl

/-- A member is read, and then the others: its name, a colon, its value. -/
theorem exists_readMembers_member (fuel depth : ℕ) (k : String) (cs : List Char) (first : Bool)
    (m : Mark) :
    ∃ m₁, ∀ (s : Source) (after : Cursor), readValue fuel depth ⟨cs, m₁⟩ = (s, some after) →
      ∃ (key : MemberName) (settled : Mark), key.text = k ∧
        readMembers (fuel + 1) depth first
            ⟨(if first then [] else [',']) ++
              '"' :: (k.toList.flatMap escape ++ '"' :: ':' :: cs), m⟩ =
          ((key, s, settled) :: (readMembers fuel depth false after).1,
            (readMembers fuel depth false after).2) := by
  have hquote : Cursor.isBlank '"' = false := by decide
  have hcolon : Cursor.isBlank ':' = false := by decide
  have hcomma : Cursor.isBlank ',' = false := by decide
  cases first with
  | true =>
    obtain ⟨m', hread⟩ := exists_readString k (':' :: cs) (m.advance '"')
    refine ⟨m'.advance ':', fun s after hvalue =>
      ⟨⟨k, (Cursor.settle ⟨':' :: cs, m'⟩ '\x7d').mark⟩, (after.settle '\x7d').mark, rfl, ?_⟩⟩
    rw [if_pos rfl, List.nil_append, readMembers]
    simp only [Cursor.blanks_cons hquote, Cursor.step_cons, hread, Cursor.blanks_cons hcolon,
      hvalue, if_true]
  | false =>
    obtain ⟨m', hread⟩ := exists_readString k (':' :: cs) ((m.advance ',').advance '"')
    refine ⟨m'.advance ':', fun s after hvalue =>
      ⟨⟨k, (Cursor.settle ⟨':' :: cs, m'⟩ '\x7d').mark⟩, (after.settle '\x7d').mark, rfl, ?_⟩⟩
    rw [if_neg Bool.false_ne_true, List.singleton_append, readMembers]
    simp only [Cursor.blanks_cons hcomma, Cursor.blanks_cons hquote, Cursor.step_cons, hread,
      Cursor.blanks_cons hcolon, hvalue, Bool.false_eq_true, if_false]

/-- A list is read through its items. -/
theorem readValue_list {depth : ℕ} (hdepth : 1 < depth) (fuel : ℕ) (cs : List Char) (m : Mark) :
    readValue (fuel + 1) depth ⟨'[' :: cs, m⟩ =
      (.list m (readItems fuel (depth - 1) true ⟨cs, m.advance '['⟩).1
          (readItems fuel (depth - 1) true ⟨cs, m.advance '['⟩).2.1,
        (readItems fuel (depth - 1) true ⟨cs, m.advance '['⟩).2.2) := by
  have hblank : Cursor.isBlank '[' = false := by decide
  rw [readValue]
  simp only [Cursor.blanks_cons hblank, Cursor.step_cons, if_neg (Nat.not_le_of_lt hdepth)]

/-- An object is read through its members. -/
theorem readValue_record {depth : ℕ} (hdepth : 1 < depth) (fuel : ℕ) (cs : List Char) (m : Mark) :
    readValue (fuel + 1) depth ⟨'\x7b' :: cs, m⟩ =
      (.record m (readMembers fuel (depth - 1) true ⟨cs, m.advance '\x7b'⟩).1
          (readMembers fuel (depth - 1) true ⟨cs, m.advance '\x7b'⟩).2.1,
        (readMembers fuel (depth - 1) true ⟨cs, m.advance '\x7b'⟩).2.2) := by
  have hblank : Cursor.isBlank '\x7b' = false := by decide
  rw [readValue]
  simp only [Cursor.blanks_cons hblank, Cursor.step_cons, if_neg (Nat.not_le_of_lt hdepth)]

/-! ### Values -/

mutual

/-- **A value is read from its compact text**, and reading stops right behind it. The fuel that a
value takes is bounded by the length of its text, since each part has a text of its own. -/
theorem exists_readValue (j : Json) (fuel depth : ℕ) (rest : List Char) (m : Mark)
    (hlegible : j.Legible) (hdepth : j.nesting < depth)
    (hfuel : 2 * j.compact.toList.length ≤ fuel) (hrest : Ends rest) :
    ∃ s m', readValue fuel depth ⟨j.compact.toList ++ rest, m⟩ = (s, some ⟨rest, m'⟩) ∧
      s.Holds j := by
  have hpos := (starts_compact hlegible).length_pos
  obtain ⟨fuel, rfl⟩ : ∃ k, fuel = k + 2 := ⟨fuel - 2, by omega⟩
  cases j with
  | null => exact exists_readValue_null (fuel + 1) depth rest m
  | bool b => exact exists_readValue_bool b (fuel + 1) depth rest m
  | num n => exact exists_readValue_num hlegible (fuel + 1) depth hrest m
  | str text => exact exists_readValue_str text (fuel + 1) depth rest m
  | arr items =>
    rw [nesting] at hdepth
    have hdeep : 1 < depth := by omega
    cases items with
    | nil =>
      refine ⟨.list m [] (.ok ((m.advance '[').advance ']')), (m.advance '[').advance ']', ?_,
        .list m _ .nil⟩
      rw [toList_compact_nil_arr, tailChars_nil, List.cons_append, List.singleton_append,
        readValue_list hdeep]
      rfl
    | cons j more =>
      rw [toList_compact_arr, List.length_cons, List.length_append] at hfuel
      rw [nestingItems] at hdepth
      have hstarts := (starts_compact hlegible.1).append (tailChars ']' (compactItems more) ++ rest)
      have hitem := (starts_compact hlegible.1).length_pos
      -- Behind an item there is a comma or a bracket, neither of which can prolong a number.
      obtain ⟨s, m₁, hvalue, hs⟩ := exists_readValue j fuel (depth - 1)
        (tailChars ']' (compactItems more) ++ rest) (m.advance '[') hlegible.1 (by omega)
        (by omega) (ends_tailChars (Or.inl rfl) _ rest)
      obtain ⟨sources, close, m', hmore, hsources⟩ :=
        exists_readItems more fuel (depth - 1) rest m₁ hlegible.2 (by omega) (by omega)
      obtain ⟨settled, hitems⟩ := exists_readItems_first hstarts hvalue
      refine ⟨.list m ((s, settled) :: sources) (.ok close), m', ?_,
        .list m close (.cons settled hs hsources)⟩
      rw [toList_compact_arr, List.cons_append, List.append_assoc, readValue_list hdeep, hitems,
        hmore]
  | obj members =>
    rw [nesting] at hdepth
    have hdeep : 1 < depth := by omega
    cases members with
    | nil =>
      refine ⟨.record m [] (.ok ((m.advance '\x7b').advance '\x7d')),
        (m.advance '\x7b').advance '\x7d', ?_, .record m _ .nil⟩
      rw [toList_compact_nil_obj, tailChars_nil, List.cons_append, List.singleton_append,
        readValue_record hdeep]
      rfl
    | cons member more =>
      obtain ⟨k, j⟩ := member
      rw [toList_compact_obj, toList_member, List.length_cons, List.length_append,
        List.length_cons, List.length_append, List.length_cons, List.length_cons] at hfuel
      rw [nestingMembers] at hdepth
      have hvalue := (starts_compact hlegible.1).length_pos
      obtain ⟨m₀, hmember⟩ := exists_readMembers_member fuel (depth - 1) k
        (j.compact.toList ++ (tailChars '\x7d' (compactMembers more) ++ rest)) true
        (m.advance '\x7b')
      obtain ⟨s, m₁, hvalue, hs⟩ := exists_readValue j fuel (depth - 1)
        (tailChars '\x7d' (compactMembers more) ++ rest) m₀ hlegible.1 (by omega)
        (by omega) (ends_tailChars (Or.inr rfl) _ rest)
      obtain ⟨sources, close, m', hmore, hsources⟩ :=
        exists_readMembers more fuel (depth - 1) rest m₁ hlegible.2 (by omega) (by omega)
      obtain ⟨key, settled, rfl, hmembers⟩ := hmember s _ hvalue
      refine ⟨.record m ((key, s, settled) :: sources) (.ok close), m', ?_,
        .record m close (.cons key settled hs hsources)⟩
      rw [if_pos rfl, List.nil_append] at hmembers
      rw [toList_compact_obj, toList_member]
      simp only [List.cons_append, List.append_assoc]
      rw [readValue_record hdeep, hmembers, hmore]

/-- The items behind the first one are read. -/
theorem exists_readItems (items : List Json) (fuel depth : ℕ) (rest : List Char) (m : Mark)
    (hlegible : LegibleItems items) (hdepth : nestingItems items < depth)
    (hfuel : 2 * (tailChars ']' (compactItems items)).length < fuel) :
    ∃ sources close m', readItems fuel depth false
        ⟨tailChars ']' (compactItems items) ++ rest, m⟩ =
        (sources, .ok close, some ⟨rest, m'⟩) ∧
      Source.HoldsItems sources items := by
  obtain ⟨fuel, rfl⟩ : ∃ k, fuel = k + 1 := ⟨fuel - 1, by omega⟩
  cases items with
  | nil => exact ⟨[], m.advance ']', m.advance ']', rfl, .nil⟩
  | cons j more =>
    rw [compactItems, tailChars_cons, List.length_cons, List.length_append] at hfuel
    rw [nestingItems] at hdepth
    obtain ⟨s, m₁, hvalue, hs⟩ := exists_readValue j fuel depth
      (tailChars ']' (compactItems more) ++ rest) (m.advance ',') hlegible.1 (by omega)
      (by omega) (ends_tailChars (Or.inl rfl) _ rest)
    obtain ⟨sources, close, m', hmore, hsources⟩ :=
      exists_readItems more fuel depth rest m₁ hlegible.2 (by omega) (by omega)
    obtain ⟨settled, hitems⟩ :=
      exists_readItems_later ((starts_compact hlegible.1).append _) hvalue
    refine ⟨(s, settled) :: sources, close, m', ?_, .cons settled hs hsources⟩
    rw [compactItems, tailChars_cons, List.cons_append, List.append_assoc, hitems, hmore]

/-- The members behind the first one are read. -/
theorem exists_readMembers (members : List (String × Json)) (fuel depth : ℕ) (rest : List Char)
    (m : Mark) (hlegible : LegibleMembers members) (hdepth : nestingMembers members < depth)
    (hfuel : 2 * (tailChars '\x7d' (compactMembers members)).length < fuel) :
    ∃ sources close m', readMembers fuel depth false
        ⟨tailChars '\x7d' (compactMembers members) ++ rest, m⟩ =
        (sources, .ok close, some ⟨rest, m'⟩) ∧
      Source.HoldsMembers sources members := by
  obtain ⟨fuel, rfl⟩ : ∃ k, fuel = k + 1 := ⟨fuel - 1, by omega⟩
  cases members with
  | nil => exact ⟨[], m.advance '\x7d', m.advance '\x7d', rfl, .nil⟩
  | cons member more =>
    obtain ⟨k, j⟩ := member
    rw [compactMembers, tailChars_cons, toList_member, List.length_cons, List.length_append,
      List.length_cons, List.length_append, List.length_cons, List.length_cons] at hfuel
    rw [nestingMembers] at hdepth
    obtain ⟨m₀, hmember⟩ := exists_readMembers_member fuel depth k
      (j.compact.toList ++ (tailChars '\x7d' (compactMembers more) ++ rest)) false m
    obtain ⟨s, m₁, hvalue, hs⟩ := exists_readValue j fuel depth
      (tailChars '\x7d' (compactMembers more) ++ rest) m₀ hlegible.1 (by omega)
      (by omega) (ends_tailChars (Or.inr rfl) _ rest)
    obtain ⟨sources, close, m', hmore, hsources⟩ :=
      exists_readMembers more fuel depth rest m₁ hlegible.2 (by omega) (by omega)
    obtain ⟨key, settled, rfl, hmembers⟩ := hmember s _ hvalue
    refine ⟨(key, s, settled) :: sources, close, m', ?_, .cons key settled hs hsources⟩
    rw [if_neg Bool.false_ne_true, List.singleton_append] at hmembers
    rw [compactMembers, tailChars_cons, toList_member]
    simp only [List.cons_append, List.append_assoc]
    rw [hmembers, hmore]

end

/-- **A value comes back from its compact text**, member by member in the order of the text. -/
def ReadsBack (j : Json) : Prop := ∃ s, source j.compact = (s, none) ∧ s.Holds j

/-- **What the printer writes the reader reads**, if containers nest no deeper than the reader goes
and every number comes back. -/
theorem readsBack {j : Json} (hlegible : j.Legible) (hdepth : j.nesting < depthLimit) :
    j.ReadsBack := by
  obtain ⟨s, m', hread, hs⟩ := exists_readValue j (2 * j.compact.toList.length + 2) depthLimit []
    {} hlegible hdepth (by omega) (Or.inl rfl)
  rw [List.append_nil] at hread
  refine ⟨s, ?_, hs⟩
  rw [source, hread]
  rfl

end Json

end CallChain
