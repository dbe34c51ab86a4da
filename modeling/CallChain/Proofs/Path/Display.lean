import CallChain.Path.Wire
import CallChain.Proofs.Json.Decoding
import CallChain.Proofs.Path.Grammar

/-!
# Writing and reading field paths

What is written of a path is read as that path. This needs the path to be one that can be written:
its names are not empty and have no characters but those of names, and its indices are within the
bound. Every path that comes from a text is of this kind, and its tails are
(`CallChain.FieldPath.Obtained.exists_tokens`), since a path comes from tokens and the tails of a
list of tokens are lists of tokens.

A path has many texts, which differ in the zeros before its indices. The written form is the one
without such zeros (`CallChain.FieldPath.withoutLeadingZeros_eq_display`), so two texts are read as
one path when they are the same without them. All of this is
`CallChain.FieldPath.display_parse_inverse`.
-/

set_option autoImplicit false

namespace CallChain.FieldPath

/-- **Paths that come from texts**, as they are or without their first steps. -/
inductive Obtained : FieldPath → Prop
  | parsed {text : String} {p : FieldPath} (h : parse text = .ok p) : Obtained p
  | tail {p : FieldPath} (h : Obtained p) : Obtained p.tail

/-! ### Leading zeros -/

/-- The characters of a text without the zeros that stand first among the digits behind a bracket.
`opened` says that nothing but such zeros came since the bracket; the last digit stays. -/
def dropZeros : Bool → List Char → List Char
  | _, [] => []
  | opened, c :: more =>
    if opened && c == '0' && more.head?.any Char.isDigit then dropZeros true more
    else c :: dropZeros (c == '[') more

/-- **A text without leading zeros inside brackets.** -/
def withoutLeadingZeros (text : String) : String :=
  String.ofList (dropZeros false text.toList)

/-! ### Digits -/

/-- A digit is the text of its value. -/
theorem toDigits_digit {d : Char} (hd : DecimalDigit d) :
    Nat.toDigits 10 (d.toNat - '0'.toNat) = [d] := by
  have hbounds : 48 ≤ d.toNat ∧ d.toNat ≤ 57 := hd
  have hdigit : ∀ n < 58, 48 ≤ n → Nat.digitChar (n - 48) = Char.ofNat n := by decide
  have hzero : '0'.toNat = 48 := rfl
  rw [hzero, Nat.toDigits_of_lt_base (by omega), hdigit d.toNat (by omega) hbounds.1,
    Char.ofNat_toNat]

/-- Digits that are read after others stand behind them. -/
theorem toDigits_ofDigitChars_of_pos {ds : List Char} (hds : ∀ c ∈ ds, DecimalDigit c) {n : ℕ}
    (hn : 0 < n) : Nat.toDigits 10 (Nat.ofDigitChars 10 ds n) = Nat.toDigits 10 n ++ ds := by
  induction ds generalizing n with
  | nil => exact (List.append_nil _).symm
  | cons d more ih =>
    have hd : DecimalDigit d := hds d List.mem_cons_self
    have hlt : d.toNat - '0'.toNat < 10 := by
      have hbounds : 48 ≤ d.toNat ∧ d.toNat ≤ 57 := hd
      have hzero : '0'.toNat = 48 := rfl
      omega
    rw [Nat.ofDigitChars_cons, ih (fun c hc => hds c (List.mem_cons_of_mem _ hc)) (by omega),
      ← Nat.toDigits_append_toDigits (by decide) hn hlt, toDigits_digit hd, List.append_assoc,
      List.singleton_append]

theorem pos_of_digit_ne_zero {d : Char} (hd : DecimalDigit d) (hne : d ≠ '0') :
    0 < d.toNat - '0'.toNat := by
  have hbounds : 48 ≤ d.toNat ∧ d.toNat ≤ 57 := hd
  have hzero : '0'.toNat = 48 := rfl
  have hvalue : d.toNat ≠ 48 := by
    intro h
    exact hne (by rw [← Char.ofNat_toNat d, h])
  omega

/-- Where no bracket opens, nothing is dropped. -/
theorem dropZeros_append {cs : List Char} (h : ∀ c ∈ cs, c ≠ '[') (rest : List Char) :
    dropZeros false (cs ++ rest) = cs ++ dropZeros false rest := by
  induction cs with
  | nil => rfl
  | cons c more ih =>
    have hc : (c == '[') = false := beq_false_of_ne (h c List.mem_cons_self)
    rw [List.cons_append, dropZeros, hc, ih (fun d hd => h d (List.mem_cons_of_mem _ hd))]
    rfl

theorem ne_open_of_mem_digits {ds : List Char} (hds : ∀ c ∈ ds, DecimalDigit c) :
    ∀ c ∈ ds, c ≠ '[' := by
  rintro c hc rfl
  exact absurd (hds _ hc) (by decide)

/-- **Without its leading zeros an index is the text of its value.** -/
theorem dropZeros_digits {ds : List Char} (hne : ds ≠ []) (hds : ∀ c ∈ ds, DecimalDigit c)
    (rest : List Char) :
    dropZeros true (ds ++ ']' :: rest) =
      Nat.toDigits 10 (Nat.ofDigitChars 10 ds 0) ++ ']' :: dropZeros false rest := by
  induction ds with
  | nil => exact absurd rfl hne
  | cons d more ih =>
    have hd : DecimalDigit d := hds d List.mem_cons_self
    have hmore : ∀ c ∈ more, DecimalDigit c := fun c hc => hds c (List.mem_cons_of_mem _ hc)
    rw [Nat.ofDigitChars_cons, Nat.mul_zero, Nat.zero_add]
    by_cases hzero : d = '0'
    · subst hzero
      cases more with
      | nil => rfl
      | cons e later =>
        -- The zero is dropped and adds nothing to the value.
        have he : e.isDigit = true := decimalDigit_iff.mp (hmore e List.mem_cons_self)
        rw [Nat.sub_self, ← ih (List.cons_ne_nil _ _) hmore]
        simp [dropZeros, he]
    · -- From the first digit that is not zero on, nothing is dropped.
      have hopen : (d == '[') = false :=
        beq_false_of_ne (ne_open_of_mem_digits hds d List.mem_cons_self)
      have hkept : dropZeros true (d :: more ++ ']' :: rest) =
          d :: dropZeros false (more ++ ']' :: rest) := by
        rw [List.cons_append, dropZeros, beq_false_of_ne hzero, hopen]
        rfl
      rw [hkept, dropZeros_append (ne_open_of_mem_digits hmore),
        toDigits_ofDigitChars_of_pos hmore (pos_of_digit_ne_zero hd hzero), toDigits_digit hd]
      rfl

/-! ### The token that a step is written as -/

namespace Token

/-- **A token without leading zeros.** -/
def plain : Token → Token
  | .name letters hne hvalid => .name letters hne hvalid
  | .index digits _ _ hbound =>
    .index (Nat.toDigits 10 (Nat.ofDigitChars 10 digits 0)) Nat.toDigits_ne_nil
      (fun _ hc => decimalDigit_iff.mpr (Nat.isDigit_of_mem_toDigits (by decide) (by decide) hc))
      (by rwa [Nat.ofDigitChars_toDigits (by decide) (by decide)])

theorem segment_plain (t : Token) : t.plain.segment = t.segment := by
  cases t with
  | name => rfl
  | index => simp only [plain, segment, Nat.ofDigitChars_toDigits (b := 10) (by decide) (by decide)]

/-- Zeros are dropped from a token, whatever follows it. -/
theorem dropZeros_spell (t : Token) (started : Bool) (rest : List Char) :
    dropZeros false (t.spell started ++ rest) = t.plain.spell started ++ dropZeros false rest := by
  cases t with
  | name letters hne hvalid =>
    have hletters : ∀ c ∈ letters, c ≠ '[' :=
      fun c hc => ne_of_nameLetter (by decide) (hvalid c hc)
    cases started with
    | true => exact congrArg ('.' :: ·) (dropZeros_append hletters rest)
    | false => exact dropZeros_append hletters rest
  | index digits hne hvalid hbound =>
    have hdigits := dropZeros_digits hne hvalid rest
    simp only [spell, plain, List.cons_append, List.append_assoc]
    exact congrArg ('[' :: ·) hdigits

/-- What is written of a step that does not come first. -/
theorem displaySegment_segment (t : Token) : displaySegment t.segment = t.plain.spell true := by
  cases t with
  | name letters => simp [displaySegment, segment, plain, spell]
  | index => rfl

end Token

theorem dropZeros_spell (started : Bool) (ts : List Token) :
    dropZeros false (spell started ts) = spell started (ts.map Token.plain) := by
  induction ts generalizing started with
  | nil => rfl
  | cons t more ih => rw [spell, Token.dropZeros_spell, ih, List.map_cons, spell]

theorem map_segment_plain (ts : List Token) :
    (ts.map Token.plain).map Token.segment = ts.map Token.segment := by
  rw [List.map_map]
  exact List.map_congr_left fun t _ => t.segment_plain

/-- **A path is written as tokens without leading zeros.** -/
theorem displayChars_map_segment (ts : List Token) :
    displayChars (ts.map Token.segment) = spell false (ts.map Token.plain) := by
  have hrest : ∀ more : List Token, (more.map Token.segment).flatMap displaySegment =
      spell true (more.map Token.plain) := by
    intro more
    induction more with
    | nil => rfl
    | cons t later ih =>
      rw [List.map_cons, List.flatMap_cons, ih, t.displaySegment_segment, List.map_cons, spell]
  cases ts with
  | nil => rfl
  | cons t more =>
    cases t with
    | name letters =>
      simp [displayChars, Token.segment, Token.plain, Token.spell, spell, hrest]
    | index digits =>
      rw [List.map_cons, Token.segment, displayChars, hrest]
      rfl

/-! ### Paths that come from texts -/

/-- **A path that comes from a text is made of tokens.** -/
theorem Obtained.exists_tokens {p : FieldPath} (h : Obtained p) :
    ∃ ts : List Token, ts.map Token.segment = p := by
  induction h with
  | parsed h =>
    obtain ⟨ts, -, -, hpath⟩ := parse_eq_ok_iff.mp h
    exact ⟨ts, hpath⟩
  | tail _ ih =>
    obtain ⟨ts, rfl⟩ := ih
    exact ⟨ts.drop 1, List.map_drop⟩

/-- What is written of such a path is read as that path. -/
theorem Obtained.parse_display {p : FieldPath} (h : Obtained p) (hne : p ≠ []) :
    parse p.display = .ok p := by
  obtain ⟨ts, rfl⟩ := h.exists_tokens
  refine parse_eq_ok_iff.mpr ⟨ts.map Token.plain, ?_, ?_, map_segment_plain ts⟩
  · simpa using hne
  · rw [display, String.toList_ofList, displayChars_map_segment]

theorem ne_nil_of_parse_eq_ok {text : String} {p : FieldPath} (h : parse text = .ok p) :
    p ≠ [] := by
  obtain ⟨ts, hne, -, rfl⟩ := parse_eq_ok_iff.mp h
  simpa using hne

/-- **A text without leading zeros is what is written of its path.** -/
theorem withoutLeadingZeros_eq_display {text : String} {p : FieldPath} (h : parse text = .ok p) :
    withoutLeadingZeros text = p.display := by
  obtain ⟨ts, -, htext, rfl⟩ := parse_eq_ok_iff.mp h
  rw [withoutLeadingZeros, display, ← htext, dropZeros_spell, displayChars_map_segment]

/-- The string form of a path restores it. -/
theorem Obtained.restores {p : FieldPath} (h : Obtained p) (hne : p ≠ []) :
    decoder.Restores p.document p :=
  (Decoder.restores_string p.display).refine (by rw [h.parse_display hne])

/-- **Writing and reading are inverse on paths.** For paths that come from texts, as they are or
without their first steps, and are not empty: what is written of a path is read as that path;
different paths are written differently; and the string form decodes to the path, as a value and as
a text. To read, write, read and write gives what reading and writing gives. Two texts are read as
one path if and only if they are the same without the leading zeros inside their brackets. -/
theorem display_parse_inverse :
    (∀ p, Obtained p → p ≠ [] → parse p.display = .ok p) ∧
    (∀ p q, Obtained p → Obtained q → p ≠ [] → q ≠ [] → p ≠ q → p.display ≠ q.display) ∧
    (∀ text p, parse text = .ok p → ∃ q, parse p.display = .ok q ∧ q.display = p.display) ∧
    (∀ p, Obtained p → p ≠ [] → decodeValue decoder p.document.toJson = .ok p ∧
      decodeText decoder p.document.text = .ok p) ∧
    ∀ text text' p p', parse text = .ok p → parse text' = .ok p' →
      (p = p' ↔ withoutLeadingZeros text = withoutLeadingZeros text') := by
  have hinverse : ∀ p, Obtained p → p ≠ [] → parse p.display = .ok p :=
    fun p hp hne => hp.parse_display hne
  have hinjective : ∀ p q, Obtained p → Obtained q → p ≠ [] → q ≠ [] → p.display = q.display →
      p = q := by
    intro p q hp hq hpne hqne h
    have hread := hinverse p hp hpne
    rw [h, hinverse q hq hqne] at hread
    exact (Except.ok.inj hread).symm
  refine ⟨hinverse, fun p q hp hq hpne hqne hne h => hne (hinjective p q hp hq hpne hqne h),
    fun text p h => ?_, fun p hp hne => ?_, fun text text' p p' h h' => ?_⟩
  · exact ⟨p, hinverse p (.parsed h) (ne_nil_of_parse_eq_ok h), rfl⟩
  · have hrestores := hp.restores hne
    have hreads : p.document.inOrder.ReadsBack :=
      Json.readsBack trivial (by rw [Json.depthLimit]; exact Nat.zero_lt_succ _)
    exact ⟨hrestores.decodeValue_eq_ok, hrestores.decodeText_eq_ok hreads⟩
  · rw [withoutLeadingZeros_eq_display h, withoutLeadingZeros_eq_display h']
    constructor
    · rintro rfl
      rfl
    · exact hinjective p p' (.parsed h) (.parsed h') (ne_nil_of_parse_eq_ok h)
        (ne_nil_of_parse_eq_ok h')

/-- The index without its leading zeros. -/
def Token.seven : Token :=
  .index ['7'] (by decide) (List.forall_iff_forall_mem.mp (by decide)) (by decide)

/-- An index with leading zeros is read as the index without them, and so is the tail of the path
that it is in. -/
theorem items_display_parse_inverse :
    parse (display [.index 7, .field "id"]) = .ok [.index 7, .field "id"] ∧
      display [.index 7, .field "id"] ≠ display [.index 7] ∧
      (∃ q, parse (display [.field "items", .index 7]) = .ok q ∧
        q.display = display [.field "items", .index 7]) ∧
      decodeText decoder (document [.index 7, .field "id"]).text =
        .ok [.index 7, .field "id"] ∧
      withoutLeadingZeros "items[007]" = withoutLeadingZeros "items[7]" := by
  have hid : parse "items[007].id" = .ok [.field "items", .index 7, .field "id"] :=
    parse_eq_ok_iff.mpr ⟨itemsDerivation.first :: itemsDerivation.rest, by decide, by decide, rfl⟩
  have hseven : parse "[7]" = .ok [.index 7] :=
    parse_eq_ok_iff.mpr ⟨[.seven], by decide, by decide, rfl⟩
  have hzeros : parse "items[007]" = .ok [.field "items", .index 7] :=
    parse_eq_ok_iff.mpr ⟨[.items, .paddedSeven], by decide, by decide, rfl⟩
  have hplain : parse "items[7]" = .ok [.field "items", .index 7] :=
    parse_eq_ok_iff.mpr ⟨[.items, .seven], by decide, by decide, rfl⟩
  obtain ⟨hinverse, hdistinct, hidempotent, hserial, htexts⟩ := display_parse_inverse
  have htail : Obtained [.index 7, .field "id"] := .tail (.parsed hid)
  exact ⟨hinverse _ htail (by decide),
    hdistinct _ _ htail (.parsed hseven) (by decide) (by decide) (by decide),
    hidempotent _ _ hzeros, (hserial _ htail (by decide)).2, (htexts _ _ _ _ hzeros hplain).mp rfl⟩

end CallChain.FieldPath
