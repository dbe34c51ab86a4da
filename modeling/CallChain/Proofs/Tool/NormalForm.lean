import CallChain.Proofs.Tool.Name

/-!
# Names as normal forms

The name made from a text is what its maximal runs of ASCII letters and digits leave of it, in lower
case and with one underscore between two of them. `CallChain.MaximalRuns` says what these runs are
without going through the text: gaps and runs take turns, and no run can be made longer. A text has
one list of runs (`CallChain.maximalRuns_iff`), and they are its words before they are brought into
lower case.

The laws of names are those of words. A character that is neither a letter nor a digit divides the
words of a text (`CallChain.words_append`), so the name of a text in two parts is made of the names
of its parts; and words that are joined by underscores are the words of the whole
(`CallChain.words_intercalate`), so that a name is its own name. What stands between the underscores
of a name are its words, and no word is empty: there is no underscore at either end, and nowhere are
there two in a row (`CallChain.nil_notMem_splitOn_toolName`).
-/

set_option autoImplicit false

namespace CallChain

/-! ### Runs -/

/-- **The maximal runs of letters and digits of a text**, from left to right. What stands before a
run has neither, and so has what comes right behind it, if the text goes on. -/
inductive MaximalRuns : List Char → List (List Char) → Prop
  /-- There is no letter and no digit. -/
  | none {gap : List Char} (hgap : ∀ c ∈ gap, c.isAlphanum = false) : MaximalRuns gap []
  /-- A gap, which may be empty, a run, and the rest of the text. -/
  | run (gap run : List Char) {rest : List Char} {runs : List (List Char)}
      (hgap : ∀ c ∈ gap, c.isAlphanum = false) (hne : run ≠ [])
      (hrun : ∀ c ∈ run, c.isAlphanum = true) (hstop : ∀ c ∈ rest.head?, c.isAlphanum = false)
      (hrest : MaximalRuns rest runs) : MaximalRuns (gap ++ run ++ rest) (run :: runs)

/-- The pieces of a text that are not empty. -/
def solidPieces (cs : List Char) : List (List Char) := (pieces cs).filter (· ≠ [])

theorem words_eq_map_solidPieces (cs : List Char) :
    words cs = (solidPieces cs).map (·.map Char.toLower) := rfl

/-- What divides a text divides its pieces. -/
theorem solidPieces_append {c : Char} (hc : c.isAlphanum = false) (cs ds : List Char) :
    solidPieces (cs ++ c :: ds) = solidPieces cs ++ solidPieces ds := by
  rw [solidPieces, pieces, List.splitOnP_append_cons cs ds (by rw [hc]; rfl), List.filter_append]
  rfl

theorem solidPieces_of_gap {gap : List Char} (h : ∀ c ∈ gap, c.isAlphanum = false) :
    solidPieces gap = [] := by
  induction gap with
  | nil => rfl
  | cons c gap ih =>
    obtain ⟨hc, hgap⟩ := List.forall_mem_cons.mp h
    exact (solidPieces_append hc [] gap).trans (ih hgap)

theorem solidPieces_of_run {run : List Char} (hne : run ≠ [])
    (h : ∀ c ∈ run, c.isAlphanum = true) : solidPieces run = [run] := by
  rw [solidPieces, pieces, List.splitOnP_eq_singleton fun c hc => by rw [h c hc]; rfl]
  exact List.filter_cons_of_pos (by simpa using hne)

/-- A gap before a text has no part in its pieces. -/
theorem solidPieces_gap_append {gap : List Char} (h : ∀ c ∈ gap, c.isAlphanum = false)
    (cs : List Char) : solidPieces (gap ++ cs) = solidPieces cs := by
  induction gap with
  | nil => rfl
  | cons c gap ih =>
    obtain ⟨hc, hgap⟩ := List.forall_mem_cons.mp h
    exact (solidPieces_append hc [] (gap ++ cs)).trans (ih hgap)

/-- A run before a text that does not go on with a letter or a digit is the first piece. -/
theorem solidPieces_run_append {run rest : List Char} (hne : run ≠ [])
    (hrun : ∀ c ∈ run, c.isAlphanum = true) (hstop : ∀ c ∈ rest.head?, c.isAlphanum = false) :
    solidPieces (run ++ rest) = run :: solidPieces rest := by
  cases rest with
  | nil => rw [List.append_nil, solidPieces_of_run hne hrun]; rfl
  | cons c rest =>
    have hc : c.isAlphanum = false := hstop c rfl
    have hrest : solidPieces (c :: rest) = solidPieces rest := solidPieces_append hc [] rest
    rw [solidPieces_append hc, solidPieces_of_run hne hrun, hrest]
    rfl

/-- Every text has maximal runs. -/
theorem exists_maximalRuns (cs : List Char) : ∃ runs, MaximalRuns cs runs := by
  induction cs with
  | nil => exact ⟨[], .none nofun⟩
  | cons c cs ih =>
    obtain ⟨runs, h⟩ := ih
    cases hc : c.isAlphanum with
    | false =>
      -- The gap in front becomes longer.
      cases h with
      | none hgap => exact ⟨[], .none (List.forall_mem_cons.mpr ⟨hc, hgap⟩)⟩
      | run gap run hgap hne hrun hstop hrest =>
        exact ⟨_, .run (c :: gap) run (List.forall_mem_cons.mpr ⟨hc, hgap⟩) hne hrun hstop hrest⟩
    | true =>
      -- The first run becomes longer if the text starts with it; else there is a new one.
      have hsingle : ∀ d ∈ [c], d.isAlphanum = true := by simpa using hc
      cases h with
      | none hgap =>
        exact ⟨[[c]], .run [] [c] nofun (List.cons_ne_nil _ _) hsingle
          (fun d hd => hgap d (List.mem_of_mem_head? hd)) (.none hgap)⟩
      | run gap run hgap hne hrun hstop hrest =>
        rcases gap with _ | ⟨d, gap⟩
        · exact ⟨_, .run [] (c :: run) nofun (List.cons_ne_nil _ _)
            (List.forall_mem_cons.mpr ⟨hc, hrun⟩) hstop hrest⟩
        · refine ⟨_, .run [] [c] nofun (List.cons_ne_nil _ _) hsingle ?_
            (.run (d :: gap) run hgap hne hrun hstop hrest)⟩
          rintro e ⟨⟩
          exact hgap d List.mem_cons_self

/-- **The maximal runs of a text** are its pieces that are not empty. -/
theorem maximalRuns_iff {cs : List Char} {runs : List (List Char)} :
    MaximalRuns cs runs ↔ runs = solidPieces cs := by
  have honly : ∀ {runs}, MaximalRuns cs runs → runs = solidPieces cs := by
    intro runs h
    induction h with
    | none hgap => exact (solidPieces_of_gap hgap).symm
    | run gap run hgap hne hrun hstop _ ih =>
      rw [List.append_assoc, solidPieces_gap_append hgap, solidPieces_run_append hne hrun hstop,
        ih]
  refine ⟨honly, ?_⟩
  rintro rfl
  obtain ⟨runs, h⟩ := exists_maximalRuns cs
  exact honly h ▸ h

/-! ### Words -/

/-- **A character that is neither a letter nor a digit divides the words of a text.** -/
theorem words_append {c : Char} (hc : c.isAlphanum = false) (cs ds : List Char) :
    words (cs ++ c :: ds) = words cs ++ words ds := by
  rw [words_eq_map_solidPieces, solidPieces_append hc, List.map_append]
  rfl

theorem isAlphanum_of_isNameChar {c : Char} (h : isNameChar c = true) : c.isAlphanum = true := by
  have halphanum : c.isAlphanum = (c.isUpper || c.isLower || c.isDigit) := rfl
  rw [isNameChar] at h
  rw [halphanum, Bool.or_assoc, h, Bool.or_true]

theorem toLower_of_isNameChar {c : Char} (h : isNameChar c = true) : c.toLower = c := by
  have hnot : ¬(c.val ≥ 65 ∧ c.val ≤ 90) := by
    rintro ⟨hleast, hmost⟩
    have hlower : c.isLower = (decide ('a'.val ≤ c.val) && decide (c.val ≤ 'z'.val)) := rfl
    have hbounds : 'a'.val.toNat = 97 ∧ '9'.val.toNat = 57 ∧ (65 : UInt32).toNat = 65 ∧
        (90 : UInt32).toNat = 90 := by decide
    simp only [isNameChar, hlower, Char.isDigit, Bool.or_eq_true, Bool.and_eq_true,
      decide_eq_true_eq, UInt32.le_iff_toNat_le, ge_iff_le] at h hleast hmost
    omega
  exact dif_neg hnot

/-- A word is its own only word. -/
theorem words_of_word {w : List Char} (hne : w ≠ []) (hw : ∀ c ∈ w, isNameChar c = true) :
    words w = [w] := by
  have hsame : w.map Char.toLower = w := by
    conv_rhs => rw [← List.map_id w]
    exact List.map_congr_left fun c hc => toLower_of_isNameChar (hw c hc)
  rw [words_eq_map_solidPieces,
    solidPieces_of_run hne fun c hc => isAlphanum_of_isNameChar (hw c hc), List.map_singleton,
    hsame]

/-- **Words that are joined by underscores are the words of the whole.** -/
theorem words_intercalate {ws : List (List Char)}
    (h : ∀ w ∈ ws, w ≠ [] ∧ ∀ c ∈ w, isNameChar c = true) : words (['_'].intercalate ws) = ws := by
  induction ws with
  | nil => rfl
  | cons w ws ih =>
    obtain ⟨⟨hne, hw⟩, hws⟩ := List.forall_mem_cons.mp h
    cases ws with
    | nil => rw [List.intercalate_singleton, words_of_word hne hw]
    | cons v ws =>
      rw [List.intercalate_cons_cons, List.append_assoc, List.singleton_append,
        words_append (by decide), words_of_word hne hw, ih hws]
      rfl

/-! ### Names -/

theorem words_toolName (text : String) : words (toolName text).toList = words text.toList := by
  rw [toList_toolName]
  exact words_intercalate fun w hw => isNameChar_of_mem_words hw

/-- A text and its name have the same words, so they have the same name. -/
theorem toolName_eq_of_words_eq {text text' : String}
    (h : words text.toList = words text'.toList) : toolName text = toolName text' := by
  rw [← String.toList_inj, toList_toolName, toList_toolName, h]

/-- **Between the underscores of a name there is always something.** -/
theorem nil_notMem_splitOn_toolName {text : String} (h : toolName text ≠ "") :
    [] ∉ (toolName text).toList.splitOn '_' := by
  have hunderscore : ∀ w ∈ words text.toList, '_' ∉ w := by
    intro w hw hmem
    exact absurd ((isNameChar_of_mem_words hw).2 '_' hmem) (by decide)
  have hne : words text.toList ≠ [] := by
    intro hnil
    apply h
    rw [← String.toList_eq_nil_iff, toList_toolName, hnil]
    rfl
  rw [toList_toolName, List.splitOn_intercalate '_' hunderscore hne]
  exact fun hnil => (isNameChar_of_mem_words hnil).1 rfl

/-- Two names joined by an underscore, or the one of them that is not empty. -/
def joinNames (first second : String) : String :=
  if first = "" then second else if second = "" then first else first ++ "_" ++ second

/-- Two lists of words, joined, are joined by one more underscore if there are words in both. -/
theorem intercalate_append (ws vs : List (List Char)) :
    ['_'].intercalate (ws ++ vs) =
      if ws = [] then ['_'].intercalate vs
      else if vs = [] then ['_'].intercalate ws
      else ['_'].intercalate ws ++ '_' :: ['_'].intercalate vs := by
  rcases ws with _ | ⟨w, ws⟩
  · rfl
  · rcases vs with _ | ⟨v, vs⟩
    · rw [List.append_nil]
      rfl
    · rw [if_neg (List.cons_ne_nil _ _), if_neg (List.cons_ne_nil _ _), List.cons_append,
        intercalate_cons, intercalate_cons, intercalate_cons, List.flatMap_append,
        List.flatMap_cons]
      simp

theorem words_eq_nil_iff {text : String} : words text.toList = [] ↔ toolName text = "" := by
  rw [toolName_eq_empty_iff, Nameable, ← words_ne_nil_iff, not_not]

/-- **The name of a text in two parts** is made of the names of the parts. -/
theorem toolName_append (s t : String) {c : Char} (hc : c.isAlphanum = false) :
    toolName (s.push c ++ t) = joinNames (toolName s) (toolName t) := by
  have hwords : words (s.push c ++ t).toList = words s.toList ++ words t.toList := by
    rw [String.toList_append, String.toList_push, List.append_assoc, List.singleton_append,
      words_append hc]
  rw [← String.toList_inj, toList_toolName, hwords, intercalate_append, joinNames]
  simp only [words_eq_nil_iff, apply_ite String.toList, String.toList_append, toList_toolName,
    List.append_assoc]
  rfl

/-- **Names are normal forms of texts.**

* The name of a text consists of its maximal runs of ASCII letters and digits, in lower case, with
  one underscore between two of them; there is one list of these runs.
* It is empty just when the text has neither a letter nor a digit. It does not start or end with an
  underscore, and has no two in a row.
* The name of a name is the name itself.
* A character that is neither a letter nor a digit divides a text into two, whose names are joined
  by an underscore if neither is empty. -/
theorem toolName_laws :
    (∀ s, ∃ runs, (∀ runs', MaximalRuns s.toList runs' ↔ runs' = runs) ∧
      (toolName s).toList = ['_'].intercalate (runs.map (·.map Char.toLower))) ∧
    (∀ s, toolName s = "" ↔ ∀ c ∈ s.toList, c.isAlphanum = false) ∧
    (∀ s, (toolName s).toList.head? ≠ some '_' ∧ (toolName s).toList.getLast? ≠ some '_' ∧
      ¬['_', '_'] <:+: (toolName s).toList) ∧
    (∀ s, toolName (toolName s) = toolName s) ∧
    ∀ s t c, c.isAlphanum = false →
      toolName (s.push c ++ t) = joinNames (toolName s) (toolName t) := by
  refine ⟨fun s => ⟨solidPieces s.toList, fun _ => maximalRuns_iff, toList_toolName s⟩, fun s => ?_,
    fun s => ?_, fun s => toolName_eq_of_words_eq (words_toolName s),
    fun s t c hc => toolName_append s t hc⟩
  · rw [toolName_eq_empty_iff, Nameable]
    simp
  · by_cases hempty : toolName s = ""
    · rw [hempty]
      simp
    · have hsplit := nil_notMem_splitOn_toolName hempty
      refine ⟨fun hhead => hsplit ?_, fun hlast => hsplit ?_, fun htwo => hsplit ?_⟩
      · obtain ⟨rest, hrest⟩ := List.head?_eq_some_iff.mp hhead
        rw [hrest, ← List.nil_append ('_' :: rest), List.splitOn_append_cons_self]
        exact List.mem_append_left _ (List.mem_singleton_self _)
      · obtain ⟨front, hfront⟩ := List.getLast?_eq_some_iff.mp hlast
        rw [hfront, List.splitOn_append_cons_self]
        exact List.mem_append_right _ (List.mem_singleton_self _)
      · obtain ⟨before, after, h⟩ := htwo
        rw [← h, List.append_assoc, List.cons_append, List.splitOn_append_cons_self,
          ← List.nil_append (['_'] ++ after), List.singleton_append, List.splitOn_append_cons_self]
        exact List.mem_append_right _ (List.mem_append_left _ (List.mem_singleton_self _))

theorem toolName_laws_twoCalls : '–'.isAlphanum = false ∧
    toolName ("Two".push '–' ++ " calls!") = joinNames "two" "calls" := by
  have hdash : '–'.isAlphanum = false := by decide
  have htwo : toolName "Two" = "two" := by decide +kernel
  have hcalls : toolName " calls!" = "calls" := by decide +kernel
  obtain ⟨-, -, -, -, happend⟩ := toolName_laws
  refine ⟨hdash, ?_⟩
  rw [happend _ _ _ hdash, htwo, hcalls]

end CallChain
