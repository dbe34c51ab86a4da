import CallChain.Tool.Request
import Mathlib.Data.List.Basic
import Mathlib.Data.List.TakeWhile

/-!
# Path templates

A template is read from left to right: an opening brace with the next closing one is a hole with a
name, and every other character stands for itself, a brace without its other half too.

* `CallChain.PathTemplate.parts`: a template as the sequence of its parts.
* `CallChain.PathTemplate.fill`: the text of a template with texts in its holes, all put in at
  once.
* `CallChain.PathTemplate.induction`: the four forms of a template.

Three searches have to do with holes, and each of them is led back to the parts: the search for
names in braces (`CallChain.PathTemplate.placeholders_eq_holes`), the replacement of one name after
the other in what is left of the template (`CallChain.PathTemplate.replaceAll_fill`), and the search
for what is left over (`CallChain.PathTemplate.placeholders_fill`).
-/

set_option autoImplicit false

namespace CallChain

namespace PathTemplate

/-- **A part of a template**: a character that stays, or a hole with a name. -/
inductive Part where
  | kept (c : Char)
  | hole (name : String)
deriving DecidableEq

theorem length_rest_lt_of_dropWhile {p : Char → Bool} {c d : Char} {inside rest : List Char}
    (h : inside.dropWhile p = d :: rest) : rest.length < (c :: inside).length :=
  Nat.lt_trans (length_after_lt h) (Nat.lt_succ_self _)

/-- **The parts of a template.** An opening brace and the next closing one enclose the name of a
hole. An opening brace without a closing one behind it is kept, with all that follows. -/
def parts (template : List Char) : List Part :=
  match template with
  | [] => []
  | c :: inside =>
    if c = '\x7b' then
      match _hclose : inside.dropWhile (· != '\x7d') with
      | [] => (c :: inside).map .kept
      | _ :: rest => .hole (String.ofList (inside.takeWhile (· != '\x7d'))) :: parts rest
    else .kept c :: parts inside
termination_by template.length
decreasing_by
  · exact length_rest_lt_of_dropWhile _hclose
  · exact Nat.lt_succ_self _

/-- The names of the holes, in order. -/
def holes (ps : List Part) : List String :=
  ps.filterMap fun p =>
    match p with
    | .kept _ => none
    | .hole name => some name

/-- **The text of a template** whose holes are filled. -/
def fill (text : String → List Char) (ps : List Part) : List Char :=
  ps.flatMap fun p =>
    match p with
    | .kept c => [c]
    | .hole name => text name

/-! ### The forms of a template -/

variable {text : String → List Char} {name : String} {c : Char} {inside rest : List Char}

theorem bne_of_not_mem {d : Char} (h : d ∉ inside) : ∀ c ∈ inside, (c != d) = true := by
  intro c hc
  have hne : c ≠ d := fun heq => h (heq ▸ hc)
  simpa using hne

theorem takeWhile_append_delimiter {d : Char} (h : d ∉ inside) (rest : List Char) :
    (inside ++ d :: rest).takeWhile (· != d) = inside := by
  rw [List.takeWhile_append_of_pos (bne_of_not_mem h), List.takeWhile_cons_of_neg (by simp),
    List.append_nil]

theorem dropWhile_close (h : '\x7d' ∉ inside) (rest : List Char) :
    (inside ++ '\x7d' :: rest).dropWhile (· != '\x7d') = '\x7d' :: rest := by
  rw [List.dropWhile_append_of_pos (bne_of_not_mem h), List.dropWhile_cons_of_neg (by simp)]

theorem dropWhile_unclosed (h : '\x7d' ∉ inside) : inside.dropWhile (· != '\x7d') = [] :=
  List.dropWhile_eq_nil_iff.mpr (bne_of_not_mem h)

/-- **A template has one of four forms**: it is empty, or it starts with a character that is no
opening brace, with a name in braces, or with a brace that is not closed. -/
theorem induction {P : List Char → Prop} (nil : P [])
    (kept : ∀ c rest, c ≠ '\x7b' → P rest → P (c :: rest))
    (hole : ∀ name rest, '\x7d' ∉ name → P rest → P ('\x7b' :: (name ++ '\x7d' :: rest)))
    (unclosed : ∀ inside, '\x7d' ∉ inside → P ('\x7b' :: inside)) (template : List Char) :
    P template := by
  induction hn : template.length using Nat.strongRecOn generalizing template with
  | ind n ih =>
    subst hn
    rcases template with _ | ⟨c, inside⟩
    · exact nil
    · by_cases hc : c = '\x7b'
      · subst hc
        by_cases hclose : '\x7d' ∈ inside
        · obtain ⟨name, rest, rfl, hname⟩ := List.eq_append_cons_of_mem hclose
          refine hole name rest hname (ih rest.length ?_ rest rfl)
          simp only [List.length_cons, List.length_append]
          omega
        · exact unclosed inside hclose
      · exact kept c inside hc (ih inside.length (Nat.lt_succ_self _) inside rfl)

theorem parts_kept (hc : c ≠ '\x7b') (rest : List Char) :
    parts (c :: rest) = .kept c :: parts rest := by
  rw [parts, if_neg hc]

theorem parts_hole (h : '\x7d' ∉ inside) (rest : List Char) :
    parts ('\x7b' :: (inside ++ '\x7d' :: rest)) = .hole (String.ofList inside) :: parts rest := by
  rw [parts, if_pos rfl]
  split
  · rename_i hclose
    rw [dropWhile_close h] at hclose
    cases hclose
  · rename_i hclose
    rw [dropWhile_close h] at hclose
    cases hclose
    rw [takeWhile_append_delimiter h]

theorem parts_unclosed (h : '\x7d' ∉ inside) :
    parts ('\x7b' :: inside) = ('\x7b' :: inside).map .kept := by
  rw [parts, if_pos rfl]
  split
  · rfl
  · rename_i hclose
    rw [dropWhile_unclosed h] at hclose
    cases hclose

theorem fill_hole (text : String → List Char) (name : String) (ps : List Part) :
    fill text (.hole name :: ps) = text name ++ fill text ps := rfl

theorem fill_kept (text : String → List Char) (c : Char) (ps : List Part) :
    fill text (.kept c :: ps) = c :: fill text ps := rfl

theorem fill_append (text : String → List Char) (ps qs : List Part) :
    fill text (ps ++ qs) = fill text ps ++ fill text qs := List.flatMap_append

theorem fill_map_kept (text : String → List Char) (cs : List Char) :
    fill text (cs.map .kept) = cs := by
  induction cs with
  | nil => rfl
  | cons c rest ih => rw [List.map_cons, fill_kept, ih]

/-- Only the texts for its holes matter. -/
theorem fill_congr {text' : String → List Char} {ps : List Part}
    (h : ∀ name ∈ holes ps, text name = text' name) : fill text ps = fill text' ps := by
  induction ps with
  | nil => rfl
  | cons p rest ih =>
    cases p with
    | kept c => rw [fill_kept, fill_kept, ih h]
    | hole name =>
      obtain ⟨hname, hrest⟩ := List.forall_mem_cons.mp h
      rw [fill_hole, fill_hole, hname, ih hrest]

theorem holes_map_kept (cs : List Char) : holes (cs.map .kept) = [] := by
  induction cs with
  | nil => rfl
  | cons c rest ih => exact ih

/-- **A template is its parts**, each hole written as its name in braces. -/
theorem fill_placeholder_parts (template : List Char) :
    fill ToolStep.placeholder (parts template) = template := by
  induction template using induction with
  | nil => rw [parts]; rfl
  | kept c rest hc ih => rw [parts_kept hc, fill_kept, ih]
  | hole name rest hname ih =>
    rw [parts_hole hname, fill_hole, ih, ToolStep.placeholder, String.toList_ofList,
      List.cons_append, List.cons_append, List.append_assoc, List.singleton_append]
  | unclosed inside h => rw [parts_unclosed h, fill_map_kept]

/-! ### Names in braces -/

/-- What stands before the first opening brace has no names. -/
theorem placeholders_append (h : '\x7b' ∉ inside) (rest : List Char) :
    placeholders (inside ++ rest) = placeholders rest := by
  induction inside with
  | nil => rfl
  | cons c more ih =>
    obtain ⟨hc, hmore⟩ := List.ne_and_not_mem_of_not_mem_cons h
    rw [← ih hmore, placeholders, placeholders, List.cons_append,
      List.dropWhile_cons_of_pos (by simpa using Ne.symm hc)]

theorem placeholders_hole (h : '\x7d' ∉ inside) (rest : List Char) :
    placeholders ('\x7b' :: (inside ++ '\x7d' :: rest)) =
      String.ofList inside :: placeholders rest := by
  rw [placeholders, List.dropWhile_cons_of_neg (by decide)]
  dsimp only
  split
  · rename_i hclose
    rw [dropWhile_close h] at hclose
    cases hclose
  · rename_i hclose
    rw [dropWhile_close h] at hclose
    cases hclose
    rw [takeWhile_append_delimiter h]

theorem placeholders_unclosed (h : '\x7d' ∉ inside) : placeholders ('\x7b' :: inside) = [] := by
  rw [placeholders, List.dropWhile_cons_of_neg (by decide)]
  dsimp only
  split
  · rfl
  · rename_i hclose
    rw [dropWhile_unclosed h] at hclose
    cases hclose

/-- **The names in braces are the holes**, in order. -/
theorem placeholders_eq_holes (template : List Char) :
    placeholders template = holes (parts template) := by
  induction template using induction with
  | nil => rw [parts, placeholders]; rfl
  | kept c rest hc ih =>
    rw [parts_kept hc]
    have hc' : '\x7b' ∉ [c] := by simpa using Ne.symm hc
    exact (placeholders_append hc' rest).trans ih
  | hole name rest hname ih =>
    rw [placeholders_hole hname, parts_hole hname, ih]
    rfl
  | unclosed inside h => rw [placeholders_unclosed h, parts_unclosed h, holes_map_kept]

/-- **Where all holes are filled no names are left.** -/
theorem placeholders_fill {template : List Char}
    (h : ∀ name ∈ holes (parts template), '\x7b' ∉ text name) :
    placeholders (fill text (parts template)) = [] := by
  induction template using induction with
  | nil => rw [parts]; rw [fill, List.flatMap_nil, placeholders]; rfl
  | kept c rest hc ih =>
    rw [parts_kept hc] at h ⊢
    have hc' : '\x7b' ∉ [c] := by simpa using Ne.symm hc
    exact (placeholders_append hc' _).trans (ih h)
  | hole name rest hname ih =>
    rw [parts_hole hname] at h ⊢
    obtain ⟨hfirst, hrest⟩ := List.forall_mem_cons.mp h
    exact (placeholders_append hfirst _).trans (ih hrest)
  | unclosed inside hinside =>
    rw [parts_unclosed hinside, fill_map_kept, placeholders_unclosed hinside]

/-! ### One name after the other -/

/-- What stands before the first opening brace is not replaced. -/
theorem replaceAll_append (h : '\x7b' ∉ inside) (name : String) (new rest : List Char) :
    Text.replaceAll (ToolStep.placeholder name) new (inside ++ rest) =
      inside ++ Text.replaceAll (ToolStep.placeholder name) new rest := by
  induction inside with
  | nil => rfl
  | cons c more ih =>
    obtain ⟨hc, hmore⟩ := List.ne_and_not_mem_of_not_mem_cons h
    rw [List.cons_append, Text.replaceAll, if_neg, ih hmore, List.cons_append]
    simp [ToolStep.placeholder, hc]

/-- A name in braces is replaced. -/
theorem replaceAll_placeholder (name : String) (new rest : List Char) :
    Text.replaceAll (ToolStep.placeholder name) new (ToolStep.placeholder name ++ rest) =
      new ++ Text.replaceAll (ToolStep.placeholder name) new rest := by
  have hhere : (ToolStep.placeholder name).isPrefixOf (ToolStep.placeholder name ++ rest) = true :=
    List.isPrefixOf_iff_prefix.mpr (List.prefix_append _ _)
  have hbehind : (name.toList ++ ['\x7d'] ++ rest).drop (name.toList ++ ['\x7d']).length = rest :=
    List.drop_left
  change Text.replaceAll (ToolStep.placeholder name) new
    ('\x7b' :: (name.toList ++ ['\x7d'] ++ rest)) = _
  rw [Text.replaceAll]
  exact (if_pos hhere).trans (by rw [ToolStep.placeholder, List.cons_append, List.length_cons,
    Nat.add_sub_cancel, hbehind])

/-- Without a closing brace there is nothing to replace. -/
theorem replaceAll_unclosed (h : '\x7d' ∉ inside) (name : String) (new : List Char) :
    Text.replaceAll (ToolStep.placeholder name) new inside = inside := by
  induction inside with
  | nil => rw [Text.replaceAll]
  | cons c more ih =>
    have hclose : '\x7d' ∈ ToolStep.placeholder name := by simp [ToolStep.placeholder]
    have hnot : ¬(ToolStep.placeholder name).isPrefixOf (c :: more) = true :=
      fun hp => h ((List.isPrefixOf_iff_prefix.mp hp).subset hclose)
    rw [Text.replaceAll, if_neg hnot, ih (List.not_mem_of_not_mem_cons h)]

/-- **Another name in braces stays.** -/
theorem replaceAll_placeholder_of_ne {other : String} (hne : other ≠ name)
    (hname : '\x7d' ∉ name.toList) (hopen : '\x7b' ∉ other.toList) (hclose : '\x7d' ∉ other.toList)
    (new rest : List Char) :
    Text.replaceAll (ToolStep.placeholder name) new (ToolStep.placeholder other ++ rest) =
      ToolStep.placeholder other ++ Text.replaceAll (ToolStep.placeholder name) new rest := by
  have hnot :
      ¬(ToolStep.placeholder name).isPrefixOf (ToolStep.placeholder other ++ rest) = true := by
    intro hp
    obtain ⟨more, hmore⟩ := List.isPrefixOf_iff_prefix.mp hp
    -- Both names end at the first closing brace.
    have hsame : name.toList ++ '\x7d' :: more = other.toList ++ '\x7d' :: rest := by
      simpa [ToolStep.placeholder] using hmore
    have hnames := congrArg (List.takeWhile (· != '\x7d')) hsame
    rw [takeWhile_append_delimiter hname, takeWhile_append_delimiter hclose] at hnames
    exact hne (String.toList_inj.mp hnames.symm)
  have hinside : '\x7b' ∉ other.toList ++ ['\x7d'] := by simpa using hopen
  change Text.replaceAll (ToolStep.placeholder name) new
    ('\x7b' :: (other.toList ++ ['\x7d'] ++ rest)) = _
  rw [Text.replaceAll]
  refine (if_neg hnot).trans ?_
  rw [replaceAll_append hinside]
  rfl

/-- **A name is replaced in a template that is filled in part.** The holes that are filled already
have no braces in their texts, and the hole of this name is open, or filled with the same text. -/
theorem replaceAll_fill {template new : List Char} (hnew : '\x7b' ∉ new)
    (hname : '\x7d' ∉ name.toList) (hhere : text name = ToolStep.placeholder name ∨ text name = new)
    (hopen : ∀ other ∈ holes (parts template), '\x7b' ∉ other.toList)
    (htext : ∀ other ∈ holes (parts template),
      text other = ToolStep.placeholder other ∨ '\x7b' ∉ text other) :
    Text.replaceAll (ToolStep.placeholder name) new (fill text (parts template)) =
      fill (fun other => if other = name then new else text other) (parts template) := by
  induction template using induction with
  | nil =>
    rw [parts]
    exact Text.replaceAll.eq_1 _ _
  | kept c rest hc ih =>
    rw [parts_kept hc] at hopen htext ⊢
    have hc' : '\x7b' ∉ [c] := by simpa using Ne.symm hc
    rw [fill_kept, fill_kept, ← ih hopen htext]
    exact replaceAll_append hc' name new _
  | hole other rest hother ih =>
    rw [parts_hole hother] at hopen htext ⊢
    obtain ⟨hopen, hopenRest⟩ := List.forall_mem_cons.mp hopen
    obtain ⟨htext, htextRest⟩ := List.forall_mem_cons.mp htext
    have hrest := ih hopenRest htextRest
    rw [fill_hole, fill_hole]
    by_cases ho : String.ofList other = name
    · rw [if_pos ho, ho, ← hrest]
      rcases hhere with hhere | hhere
      · rw [hhere, replaceAll_placeholder]
      · rw [hhere, replaceAll_append hnew]
    · have hclose : '\x7d' ∉ (String.ofList other).toList := by rwa [String.toList_ofList]
      rw [if_neg ho, ← hrest]
      rcases htext with htext | htext
      · rw [htext, replaceAll_placeholder_of_ne ho hname hopen hclose]
      · rw [replaceAll_append htext]
  | unclosed inside hinside =>
    rw [parts_unclosed hinside, fill_map_kept, fill_map_kept]
    refine replaceAll_unclosed ?_ name new
    simpa using hinside

/-! ### Segments -/

/-- A character that the texts for the holes do not have is there as often as it is kept. -/
theorem count_fill {d : Char} {ps : List Part} (h : ∀ name ∈ holes ps, d ∉ text name) :
    (fill text ps).count d = ps.count (.kept d) := by
  induction ps with
  | nil => rfl
  | cons p rest ih =>
    cases p with
    | kept c =>
      rw [fill_kept, List.count_cons, List.count_cons, ih h]
      simp
    | hole name =>
      obtain ⟨hname, hrest⟩ := List.forall_mem_cons.mp h
      rw [fill_hole, List.count_append, List.count_eq_zero.mpr hname, ih hrest, List.count_cons]
      simp

/-- **A place between delimiters**: what stands before it is nothing or ends with a slash, and what
stands behind it is nothing or starts with one. -/
def Delimited (before after : List Part) : Prop :=
  (before = [] ∨ before.getLast? = some (.kept '/')) ∧
    (after = [] ∨ after.head? = some (.kept '/'))

/-- A longer beginning that ends with a delimiter has more of them. -/
theorem eq_nil_of_count_append {d : Char} {a c : List Char}
    (hcount : a.count d = (a ++ c).count d) (hend : a ++ c = [] ∨ (a ++ c).getLast? = some d) :
    c = [] := by
  by_contra hc
  have hlast : c.getLast? = some d := by
    rcases hend with hnil | hend
    · exact absurd (List.append_eq_nil_iff.mp hnil).2 hc
    · rwa [List.getLast?_append_of_ne_nil _ hc] at hend
  have hmem : 0 < c.count d := List.count_pos_iff.mpr (List.mem_of_getLast? hlast)
  rw [List.count_append] at hcount
  omega

/-- **Beginnings that end with a delimiter**, and have equally many of them, are the same. -/
theorem append_inj_of_count {d : Char} {a b x y : List Char} (h : a ++ x = b ++ y)
    (hcount : a.count d = b.count d) (ha : a = [] ∨ a.getLast? = some d)
    (hb : b = [] ∨ b.getLast? = some d) : a = b ∧ x = y := by
  rcases List.append_eq_append_iff.mp h with ⟨c, rfl, hx⟩ | ⟨c, rfl, hy⟩
  · obtain rfl := eq_nil_of_count_append hcount hb
    exact ⟨(List.append_nil a).symm, hx⟩
  · obtain rfl := eq_nil_of_count_append hcount.symm ha
    exact ⟨List.append_nil b, hy.symm⟩

/-- A text without slashes is all that stands before the first one. -/
theorem takeWhile_segment {inside behind : List Char} (h : '/' ∉ inside)
    (hbehind : behind = [] ∨ behind.head? = some '/') :
    (inside ++ behind).takeWhile (· != '/') = inside := by
  rcases behind with _ | ⟨c, more⟩
  · rw [List.append_nil, List.takeWhile_eq_self_iff]
    exact bne_of_not_mem h
  · obtain rfl : c = '/' := by simpa using hbehind
    exact takeWhile_append_delimiter h more

namespace Delimited

variable {before after : List Part}

theorem fill_before (h : Delimited before after) (text : String → List Char) :
    fill text before = [] ∨ (fill text before).getLast? = some '/' := by
  rcases h.1 with rfl | hlast
  · exact Or.inl rfl
  · obtain ⟨front, rfl⟩ := List.getLast?_eq_some_iff.mp hlast
    rw [fill_append, fill_kept]
    exact Or.inr List.getLast?_concat

theorem fill_after (h : Delimited before after) (text : String → List Char) :
    fill text after = [] ∨ (fill text after).head? = some '/' := by
  rcases h.2 with rfl | hhead
  · exact Or.inl rfl
  · obtain ⟨back, rfl⟩ := List.head?_eq_some_iff.mp hhead
    exact Or.inr rfl

/-- **The text of a whole segment can be told from the whole**, whatever stands in the others. -/
theorem text_eq_of_fill_eq {text' : String → List Char} (h : Delimited before after)
    (htext : ∀ other ∈ holes (before ++ .hole name :: after), '/' ∉ text other)
    (htext' : ∀ other ∈ holes (before ++ .hole name :: after), '/' ∉ text' other)
    (heq : fill text (before ++ .hole name :: after) =
      fill text' (before ++ .hole name :: after)) : text name = text' name := by
  have hholes : holes (before ++ .hole name :: after) = holes before ++ name :: holes after :=
    List.filterMap_append
  rw [hholes] at htext htext'
  rw [fill_append, fill_append, fill_hole, fill_hole] at heq
  have hcount : (fill text before).count '/' = (fill text' before).count '/' := by
    rw [count_fill fun other hother => htext other (List.mem_append_left _ hother),
      count_fill fun other hother => htext' other (List.mem_append_left _ hother)]
  obtain ⟨-, hrest⟩ := append_inj_of_count heq hcount (h.fill_before text) (h.fill_before text')
  have hsegment := congrArg (List.takeWhile (· != '/')) hrest
  rwa [takeWhile_segment (htext name (by simp)) (h.fill_after text),
    takeWhile_segment (htext' name (by simp)) (h.fill_after text')] at hsegment

end Delimited

end PathTemplate

end CallChain
