import CallChain.Proofs.Plan.Placeholders
import CallChain.Proofs.Text.Percent
import CallChain.Proofs.Tool.Assembly

/-!
# Paths of requests

A request gets its path from a template, by putting in one parameter after the other. The point is
`CallChain.ToolStep.textAfter`: what stands for the name of a hole once some parameters are placed,
its text if the name is among them and else still the name in braces. The path is the template with
these texts in its holes, at the beginning, after each parameter
(`CallChain.ToolStep.path_place`) and so in the end (`CallChain.ToolStep.path_of_placeAll`). Nothing
is ever replaced in a text that was put in, for an encoded text has no braces.

When every hole has the name of a path parameter, no hole is left then. A path parameter cannot be
left out, so a request fails for no other reason than a required parameter without a value
(`CallChain.ToolStep.exists_request_iff`).
-/

set_option autoImplicit false

namespace CallChain

open PathTemplate (Part parts holes fill)

theorem Parameter.isRequired_of_path {p : Parameter} (h : p.location = .path) :
    p.isRequired = true := by
  simp [isRequired, h]

namespace ToolStep

variable {s : ToolStep} {values values' : Members} {placed parameters : List Parameter}
  {p : Parameter} {name : String} {c : Char} {template : List Char} {request request' : Request}

/-! ### Texts for holes -/

/-- The text of the value of a name. -/
def valueText (values : Members) (name : String) : String :=
  scalarText ((Entries.get? values name).getD .null)

/-- The same text as it stands in a path. -/
def pathText (values : Members) (name : String) : List Char :=
  Text.percentEncode Text.isUnreserved (valueText values name).toList

/-- **No delimiter comes from a value.** -/
theorem not_mem_pathText (values : Members) (name : String) (hc : Text.isEncoded c = false) :
    c ∉ pathText values name := by
  intro h
  rw [Text.isEncoded_of_mem_percentEncode h] at hc
  cases hc

/-- The text in a path tells the text of the value. -/
theorem pathText_injective (h : pathText values name = pathText values' name) :
    valueText values name = valueText values' name :=
  String.toList_inj.mp (Text.percentEncode_injective h)

/-- **What stands for a name once some parameters are placed.** -/
def textAfter (values : Members) (placed : List Parameter) (name : String) : List Char :=
  if ∃ p ∈ placed, p.location = .path ∧ p.name = name then pathText values name
  else placeholder name

theorem textAfter_nil : textAfter values [] = placeholder := by
  funext name
  exact if_neg (by simp)

theorem textAfter_of_mem (hp : p ∈ placed) (hpath : p.location = .path) :
    textAfter values placed p.name = pathText values p.name :=
  if_pos ⟨p, hp, hpath, rfl⟩

/-- A name stands in braces, or it is replaced by a text. -/
theorem textAfter_cases (values : Members) (placed : List Parameter) (name : String) :
    textAfter values placed name = placeholder name ∨
      textAfter values placed name = pathText values name := by
  rw [textAfter]
  split
  · exact Or.inr rfl
  · exact Or.inl rfl

/-- A path parameter replaces its own name. -/
theorem textAfter_concat (hp : p.location = .path) :
    textAfter values (placed ++ [p]) =
      fun other => if other = p.name then pathText values p.name
        else textAfter values placed other := by
  funext other
  by_cases hother : other = p.name
  · subst hother
    rw [if_pos rfl]
    exact textAfter_of_mem (by simp) hp
  · rw [if_neg hother, textAfter, textAfter]
    exact if_congr (by simp [or_and_right, exists_or, Ne.symm hother]) rfl rfl

/-- Other parameters replace no name. -/
theorem textAfter_concat_of_ne (hp : p.location ≠ .path) :
    textAfter values (placed ++ [p]) = textAfter values placed := by
  funext other
  exact if_congr (by simp [or_and_right, exists_or, hp]) rfl rfl

/-! ### One parameter after the other -/

/-- **Placing a value** replaces the name of its parameter, if that belongs to the path. -/
theorem path_place {v : Json} {d : Draft}
    (hopen : ∀ other ∈ holes (parts template), '\x7b' ∉ other.toList)
    (hname : '\x7d' ∉ p.name.toList) (hv : present? values p.name = some v)
    (hd : d.path = fill (textAfter values placed) (parts template)) :
    (place p v d).path = fill (textAfter values (placed ++ [p])) (parts template) := by
  by_cases hp : p.location = .path
  · obtain ⟨rfl, -⟩ := present?_eq_some_iff.mp hv
    have hnew : '\x7b' ∉ pathText values p.name := not_mem_pathText values p.name (by decide)
    have htext : ∀ other ∈ holes (parts template),
        textAfter values placed other = placeholder other ∨
          '\x7b' ∉ textAfter values placed other := by
      intro other _
      refine (textAfter_cases values placed other).imp_right fun hother => ?_
      rw [hother]
      exact not_mem_pathText values other (by decide)
    simp only [place, hp, hd, textAfter_concat hp]
    exact PathTemplate.replaceAll_fill hnew hname (textAfter_cases values placed p.name) hopen htext
  · rw [textAfter_concat_of_ne hp, ← hd]
    cases hlocation : p.location with
    | path => exact absurd hlocation hp
    | query => cases v <;> simp [place, hlocation]
    | body => simp [place, hlocation]

/-- **In the end all path parameters are replaced.** -/
theorem path_of_placeAll {step : ℕ} {d d' : Draft}
    (hopen : ∀ other ∈ holes (parts template), '\x7b' ∉ other.toList)
    (hnames : ∀ p ∈ parameters, '\x7d' ∉ p.name.toList)
    (hd : d.path = fill (textAfter values placed) (parts template))
    (h : placeAll step values parameters d = .ok d') :
    d'.path = fill (textAfter values (placed ++ parameters)) (parts template) := by
  refine placeAll_induction
    (P := fun placed d => d.path = fill (textAfter values placed) (parts template)) ?_ ?_ hd h
  · exact fun p hp placed d v hv hd => path_place hopen (hnames p hp) hv hd
  · intro p _ placed d _ hrequired hd
    -- A parameter that may be left out does not belong to the path.
    have hp : p.location ≠ .path := fun hp => hrequired (Parameter.isRequired_of_path hp)
    rw [textAfter_concat_of_ne hp, hd]

/-- **All parameters can be placed** when the required ones have values. -/
theorem exists_placeAll_iff (step : ℕ) (d : Draft) :
    (∃ d', placeAll step values parameters d = .ok d') ↔
      ∀ p ∈ parameters, p.isRequired = true → (Entries.get? values p.name).getD .null ≠ .null := by
  induction parameters generalizing d with
  | nil => simp [placeAll]
  | cons p rest ih =>
    rw [placeAll, List.forall_mem_cons]
    rcases hv : present? values p.name with _ | v
    · have hnull := present?_eq_none_iff.mp hv
      dsimp only
      split
      · rename_i hrequired
        simp [hnull, hrequired]
      · rename_i hrequired
        simp [hrequired, ih]
    · obtain ⟨hvalue, hnull⟩ := present?_eq_some_iff.mp hv
      rw [hvalue] at hnull
      simp [hnull, ih]

/-! ### Requests -/

/-- **The holes are declared**: each has the name of a path parameter. -/
def DeclaresHoles (s : ToolStep) : Prop :=
  ∀ name, .hole name ∈ parts s.path.toList → ∃ p ∈ s.parameters, p.name = name ∧ p.location = .path

/-- **Names without braces.** -/
def NamesPlain (s : ToolStep) : Prop :=
  ∀ p ∈ s.parameters, '\x7b' ∉ p.name.toList ∧ '\x7d' ∉ p.name.toList

/-- **A request that goes where the template and the values say.** -/
structure Addresses (s : ToolStep) (values : Members) (request : Request) : Prop where
  /-- Each hole has the encoded text of the value of its name, and all else is kept. -/
  path : request.path.toList = fill (pathText values) (parts s.path.toList)
  /-- These are values of path parameters, and they are there. -/
  value : ∀ name, .hole name ∈ parts s.path.toList →
    (∃ p ∈ s.parameters, p.name = name ∧ p.location = .path) ∧
      (Entries.get? values name).getD .null ≠ .null
  /-- No hole is left. -/
  filled : ∀ name, .hole name ∉ parts request.path.toList
  /-- The slashes are those of the template outside of its holes. -/
  slashes : request.path.toList.count '/' = (parts s.path.toList).count (.kept '/')

variable {step : ℕ} {input : Json} {previous? : Option Json} {d : Draft}

/-- The names of declared holes have no opening brace. -/
theorem DeclaresHoles.not_open (h : s.DeclaresHoles) (hnames : s.NamesPlain) :
    ∀ name ∈ holes (parts s.path.toList), '\x7b' ∉ name.toList := by
  intro name hname
  obtain ⟨p, hp, rfl, -⟩ := h name (PathTemplate.mem_holes_iff.mp hname)
  exact (hnames p hp).1

/-- **Where all holes are declared they are all filled.** -/
theorem DeclaresHoles.path_of_placeAll (h : s.DeclaresHoles) (hnames : s.NamesPlain)
    (hplace : placeAll step values s.parameters { path := s.path.toList } = .ok d) :
    d.path = fill (pathText values) (parts s.path.toList) := by
  have hstart : s.path.toList = fill (textAfter values []) (parts s.path.toList) := by
    rw [textAfter_nil, PathTemplate.fill_placeholder_parts]
  rw [ToolStep.path_of_placeAll (h.not_open hnames) (fun p hp => (hnames p hp).2) hstart hplace]
  refine PathTemplate.fill_congr fun name hname => ?_
  obtain ⟨p, hp, rfl, hlocation⟩ := h name (PathTemplate.mem_holes_iff.mp hname)
  exact textAfter_of_mem hp hlocation

/-- **A request addresses what its call says.** -/
theorem addresses_of_request (hnames : s.NamesPlain) (hholes : s.DeclaresHoles)
    (h : s.request step input previous? = .ok request) :
    ∃ values, s.values step input previous? = .ok values ∧ s.Addresses values request := by
  obtain ⟨values, d, hvalues, hplace, hleft, rfl⟩ := request_eq_ok_iff.mp h
  have hpath := hholes.path_of_placeAll hnames hplace
  refine ⟨values, hvalues, ?_, fun name hname => ?_, fun name hname => ?_, ?_⟩
  · rw [String.toList_ofList, hpath]
  · refine ⟨hholes name hname, ?_⟩
    obtain ⟨p, hp, rfl, hlocation⟩ := hholes name hname
    exact (exists_placeAll_iff step _).mp ⟨d, hplace⟩ p hp (Parameter.isRequired_of_path hlocation)
  · rw [PathTemplate.placeholders_eq_holes] at hleft
    rw [String.toList_ofList, ← PathTemplate.mem_holes_iff, hleft] at hname
    cases hname
  · rw [String.toList_ofList, hpath]
    exact PathTemplate.count_fill fun name _ => not_mem_pathText values name (by decide)

/-- **A request is made if and only if all required parameters have values**, when there are values
at all. -/
theorem exists_request_iff (hnames : s.NamesPlain) (hholes : s.DeclaresHoles)
    (hvalues : s.values step input previous? = .ok values) :
    (∃ request, s.request step input previous? = .ok request) ↔
      ∀ p ∈ s.parameters, p.isRequired = true →
        (Entries.get? values p.name).getD .null ≠ .null := by
  rw [← exists_placeAll_iff step { path := s.path.toList }]
  constructor
  · rintro ⟨request, h⟩
    obtain ⟨values', d, hvalues', hplace, -, -⟩ := request_eq_ok_iff.mp h
    cases hvalues.symm.trans hvalues'
    exact ⟨d, hplace⟩
  · rintro ⟨d, hplace⟩
    have hleft : placeholders d.path = [] := by
      rw [hholes.path_of_placeAll hnames hplace]
      exact PathTemplate.placeholders_fill fun name _ => not_mem_pathText values name (by decide)
    exact ⟨_, request_eq_ok_iff.mpr ⟨values, d, hvalues, hplace, hleft, rfl⟩⟩

/-- **Different texts in a segment of their own lead to different paths.** -/
theorem Addresses.path_ne (h : s.Addresses values request) (h' : s.Addresses values' request')
    {before after : List Part} (hparts : parts s.path.toList = before ++ .hole name :: after)
    (hsegment : PathTemplate.Delimited before after)
    (hne : valueText values name ≠ valueText values' name) : request.path ≠ request'.path := by
  intro heq
  refine hne (pathText_injective (hsegment.text_eq_of_fill_eq ?_ ?_ ?_))
  · exact fun other _ => not_mem_pathText values other (by decide)
  · exact fun other _ => not_mem_pathText values' other (by decide)
  · rw [← hparts, ← h.path, ← h'.path, heq]

end ToolStep

end CallChain
