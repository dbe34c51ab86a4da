import CallChain.Proofs.Text.PathTemplate

/-!
# The check of placeholders

Every hole of a path template should have the name of a path parameter. The check looks a name up
among all parameters and takes the first of this name; whether it belongs to the path decides. So it
answers what the first parameter of each name says (`CallChain.Graph.checkPlaceholders_exact`), and
the leftmost hole that it does not allow is reported. This differs from what is asked where a path
parameter stands behind a parameter of the same name that belongs elsewhere
(`CallChain.Graph.hidden_placeholder`).
-/

set_option autoImplicit false

namespace CallChain

open PathTemplate (Part parts holes)

namespace PathTemplate

variable {ps : List Part} {name : String}

theorem mem_holes_iff : name ∈ holes ps ↔ .hole name ∈ ps := by
  rw [holes, List.mem_filterMap]
  constructor
  · rintro ⟨p, hp, hname⟩
    cases p with
    | kept c => cases hname
    | hole other =>
      cases hname
      exact hp
  · exact fun h => ⟨.hole name, h, rfl⟩

/-- **The leftmost hole of a kind**, if there is one. -/
theorem find?_holes_cases (f : String → Bool) (ps : List Part) :
    (holes ps).find? f = none ∧ (∀ name, .hole name ∈ ps → f name = false) ∨
      ∃ before name after, (holes ps).find? f = some name ∧ ps = before ++ .hole name :: after ∧
        (∀ other, .hole other ∈ before → f other = false) ∧ f name = true := by
  induction ps with
  | nil => exact Or.inl ⟨rfl, nofun⟩
  | cons p rest ih =>
    cases p with
    | kept c =>
      rcases ih with ⟨hnone, hall⟩ | ⟨before, name, after, hfind, rfl, hbefore, hname⟩
      · exact Or.inl ⟨hnone, fun name h => hall name (by simpa using h)⟩
      · exact Or.inr ⟨.kept c :: before, name, after, hfind, rfl,
          fun other h => hbefore other (by simpa using h), hname⟩
    | hole first =>
      have hholes : holes (.hole first :: rest) = first :: holes rest := rfl
      rw [hholes]
      rcases hfirst : f first with _ | _
      · rw [List.find?_cons_of_neg (by simp [hfirst])]
        have hcons : ∀ {l : List Part}, (∀ other, .hole other ∈ l → f other = false) →
            ∀ other, Part.hole other ∈ .hole first :: l → f other = false := by
          intro l hl other h
          rcases List.mem_cons.mp h with heq | hlater
          · cases heq
            exact hfirst
          · exact hl other hlater
        rcases ih with ⟨hnone, hall⟩ | ⟨before, name, after, hfind, rfl, hbefore, hname⟩
        · exact Or.inl ⟨hnone, hcons hall⟩
        · exact Or.inr ⟨.hole first :: before, name, after, hfind, rfl, hcons hbefore, hname⟩
      · rw [List.find?_cons_of_pos hfirst]
        exact Or.inr ⟨[], first, rest, rfl, rfl, nofun, hfirst⟩

/-- Of two places in a list one comes first, or they are the same. -/
theorem mem_or_eq_or_mem_of_append_eq {before before' after after' : List Part} {p p' : Part}
    (h : before ++ p :: after = before' ++ p' :: after') : p ∈ before' ∨ p = p' ∨ p' ∈ before := by
  rcases List.append_eq_append_iff.mp h with ⟨more, rfl, hmore⟩ | ⟨more, rfl, hmore⟩
  · rcases more with _ | ⟨first, more⟩
    · exact Or.inr (Or.inl (List.cons.inj hmore).1)
    · rw [(List.cons.inj hmore).1]
      exact Or.inl (by simp)
  · rcases more with _ | ⟨first, more⟩
    · exact Or.inr (Or.inl (List.cons.inj hmore).1.symm)
    · rw [(List.cons.inj hmore).1]
      exact Or.inr (Or.inr (by simp))

end PathTemplate

namespace ApiDefinition

variable {api : ApiDefinition} {name : String}

/-- **A path parameter has the name**, whatever other parameters have it too. -/
def DeclaresInPath (api : ApiDefinition) (name : String) : Prop :=
  ∃ p ∈ api.parameters, p.name = name ∧ p.location = .path

/-- **The first parameter of the name belongs to the path.** -/
def FirstInPath (api : ApiDefinition) (name : String) : Prop :=
  ∃ p, api.parameter? name = some p ∧ p.location = .path

theorem hasPathParameter_iff : api.hasPathParameter name = true ↔ api.FirstInPath name := by
  rw [hasPathParameter, FirstInPath]
  rcases api.parameter? name with _ | p
  · simp
  · simp

theorem FirstInPath.declaresInPath (h : api.FirstInPath name) : api.DeclaresInPath name := by
  obtain ⟨p, hp, hlocation⟩ := h
  exact ⟨p, List.mem_of_find?_eq_some hp, by simpa using List.find?_some hp, hlocation⟩

end ApiDefinition

namespace Graph

/-- **What a check of the holes has to answer**, when `declared` says which names they may have: it
accepts a template whose holes have such names, and else reports the leftmost of the others. -/
def JudgesHoles (node : Node) (api : ApiDefinition) (declared : String → Prop) :
    Except PlanError Unit → Prop
  | .ok () => ∀ name, .hole name ∈ parts api.path.toList → declared name
  | .error e => ∃ before name after, parts api.path.toList = before ++ .hole name :: after ∧
      (∀ other, .hole other ∈ before → declared other) ∧ ¬declared name ∧
      e = .undeclaredPlaceholder node.id api.id name

/-- The check goes by the first parameter of each name. -/
theorem judgesHoles_checkPlaceholders (node : Node) (api : ApiDefinition) :
    JudgesHoles node api api.FirstInPath (checkPlaceholders node api) := by
  have hiff : ∀ name, (!api.hasPathParameter name) = false ↔ api.FirstInPath name := by
    intro name
    rw [Bool.not_eq_false', ApiDefinition.hasPathParameter_iff]
  rw [checkPlaceholders, PathTemplate.placeholders_eq_holes]
  rcases PathTemplate.find?_holes_cases (fun name => !api.hasPathParameter name)
      (parts api.path.toList) with
    ⟨hnone, hall⟩ | ⟨before, name, after, hfind, hparts, hbefore, hname⟩
  · rw [hnone]
    exact fun name h => (hiff name).mp (hall name h)
  · rw [hfind]
    refine ⟨before, name, after, hparts, fun other h => (hiff other).mp (hbefore other h), ?_, rfl⟩
    rw [← hiff, hname]
    exact Bool.noConfusion

/-- **No hole up to the leftmost undeclared one has a hidden name**: one that a path parameter has,
but not the first parameter of this name. -/
def NoneHidden (api : ApiDefinition) : Prop :=
  ∀ before name after, parts api.path.toList = before ++ .hole name :: after →
    (∀ other, .hole other ∈ before → api.DeclaresInPath other) → api.DeclaresInPath name →
    api.FirstInPath name

/-- **The check of placeholders.** In all cases it goes by the first parameter of each name: it
accepts a template all of whose holes have the name of a parameter that belongs to the path and is
the first of its name, and else reports the leftmost hole that has not. That is what any path
parameters of these names ask for, if and only if no hole up to the leftmost undeclared one has a
name that is hidden by an earlier parameter elsewhere. -/
theorem checkPlaceholders_exact (node : Node) (api : ApiDefinition) :
    JudgesHoles node api api.FirstInPath (checkPlaceholders node api) ∧
      (JudgesHoles node api api.DeclaresInPath (checkPlaceholders node api) ↔ NoneHidden api) := by
  have hfirst := judgesHoles_checkPlaceholders node api
  refine ⟨hfirst, ?_, ?_⟩
  · intro h before name after hparts hbefore hname
    rcases hanswer : checkPlaceholders node api with e | ⟨⟩
    · rw [hanswer] at h hfirst
      obtain ⟨front, bad, back, hsplit, hfront, hbad, rfl⟩ := hfirst
      obtain ⟨_, bad', _, _, _, hundeclared, herror⟩ := h
      obtain rfl : bad = bad' := by cases herror; rfl
      -- The hole stands before the one that is reported, for that one is not declared.
      rcases PathTemplate.mem_or_eq_or_mem_of_append_eq (hparts.symm.trans hsplit) with
        hname' | hname' | hbad'
      · exact hfront name hname'
      · cases hname'
        exact absurd hname hundeclared
      · exact absurd (hbefore bad hbad') hundeclared
    · rw [hanswer] at hfirst
      exact hfirst name (by rw [hparts]; simp)
  · intro hnone
    rcases hanswer : checkPlaceholders node api with e | ⟨⟩
    · rw [hanswer] at hfirst
      obtain ⟨before, name, after, hparts, hbefore, hname, rfl⟩ := hfirst
      have hdeclared : ∀ other, .hole other ∈ before → api.DeclaresInPath other :=
        fun other h => (hbefore other h).declaresInPath
      exact ⟨before, name, after, hparts, hdeclared,
        fun h => hname (hnone before name after hparts hdeclared h), rfl⟩
    · rw [hanswer] at hfirst
      exact fun name h => (hfirst name h).declaresInPath

/-- An operation with an id in its path, which is declared behind an id in the query. -/
def hidingApi : ApiDefinition where
  id := "show"
  method := .get
  path := "/items/\x7bid\x7d"
  parameters := [⟨"id", .query, true, .obj []⟩, ⟨"id", .path, true, .obj []⟩]

/-- **A path parameter can be hidden.** The template has one hole, and there is a path parameter of
its name; it is refused, for the first parameter of this name belongs to the query. -/
theorem hidden_placeholder :
    checkPlaceholders ⟨"show", "show", []⟩ hidingApi =
        .error (.undeclaredPlaceholder "show" "show" "id") ∧
      hidingApi.DeclaresInPath "id" ∧
      ¬JudgesHoles ⟨"show", "show", []⟩ hidingApi hidingApi.DeclaresInPath
        (checkPlaceholders ⟨"show", "show", []⟩ hidingApi) := by
  have hanswer : checkPlaceholders ⟨"show", "show", []⟩ hidingApi =
      .error (.undeclaredPlaceholder "show" "show" "id") := by
    with_unfolding_all rfl
  have hdeclared : hidingApi.DeclaresInPath "id" :=
    ⟨⟨"id", .path, true, .obj []⟩, by simp [hidingApi], rfl, rfl⟩
  refine ⟨hanswer, hdeclared, ?_⟩
  rw [hanswer]
  rintro ⟨_, name, _, _, _, hname, herror⟩
  cases herror
  exact hname hdeclared

end Graph

end CallChain
