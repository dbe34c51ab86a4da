import CallChain.Tool.Request
import CallChain.Proofs.Entries

/-!
# Which parameters of a call have a value

The values of a call are gathered from three places, and each of them only adds names. A name has a
value in the end when the call fixes it, when it is a parameter that the input of the tool brings,
or when a mapping writes to it (`CallChain.ToolStep.has_values_iff`).

The targets of mappings start with a name here, as they do in every compiled tool: a target that
starts with an index cannot be written to an object, and the empty one would replace all values.
-/

set_option autoImplicit false

namespace CallChain

/-- **Writing to a place inside a member depends on this member only**, and not even on it when the
whole of it is written. -/
theorem FieldPath.inject_congr {p : FieldPath} {name : String} (hhead : p.headField? = some name)
    (part : Json) {a b : Members}
    (h : Entries.get? a name = Entries.get? b name ∨ p = [.field name]) :
    ∃ inner e?, p.inject part (.obj a) = (.obj (Entries.insert name inner a), e?) ∧
      p.inject part (.obj b) = (.obj (Entries.insert name inner b), e?) := by
  rcases p with _ | ⟨⟨field⟩ | ⟨i⟩, rest⟩
  · cases hhead
  · cases hhead
    rcases h with hsame | hwhole
    · refine ⟨_, _, rfl, ?_⟩
      simp only [inject, injectFrom, Json.asMembers?, hsame]
    · cases hwhole
      exact ⟨part, none, rfl, rfl⟩
  · cases hhead

/-- Writing to a place inside a member sets that member, whether or not the writing gets to its
end. -/
theorem FieldPath.inject_of_headField? {p : FieldPath} {name : String}
    (h : p.headField? = some name) (part : Json) (members : Members) :
    ∃ inner e?, p.inject part (.obj members) = (.obj (Entries.insert name inner members), e?) := by
  obtain ⟨inner, e?, hinject, -⟩ := inject_congr (b := members) h part (Or.inl rfl)
  exact ⟨inner, e?, hinject⟩

namespace ToolStep

variable {s : ToolStep} {input : Json} {name : String}

/-- The input brings a value for each parameter that it has a member for. -/
theorem has_inputValues_iff :
    Entries.has (s.inputValues input) name = true ↔
      (∃ p ∈ s.parameters, p.name = name) ∧ (input.member? name).isSome = true := by
  -- A parameter adds its name when the input has a member for it.
  refine (Entries.has_foldl_iff (P := fun p => p.name = name ∧ (input.member? name).isSome = true)
    (fun values p => ?_) s.parameters []).trans ?_
  · by_cases hname : p.name = name
    · subst hname
      rcases input.member? p.name with _ | v
      · simp
      · simp [Entries.has_insert_iff]
    · rcases input.member? p.name with _ | v
      · simp [hname]
      · simp [Entries.has_insert_iff, hname, Ne.symm hname]
  · have hempty : Entries.has ([] : Members) name = false := rfl
    simp only [hempty, Bool.false_eq_true, or_false]
    constructor
    · rintro ⟨p, hp, hname, hsome⟩
      exact ⟨⟨p, hp, hname⟩, hsome⟩
    · rintro ⟨⟨p, hp, hname⟩, hsome⟩
      exact ⟨p, hp, hname, hsome⟩

/-- What the input brings under a name it has under this name. -/
theorem member?_of_get?_inputValues {v : Json}
    (h : Entries.get? (s.inputValues input) name = some v) : input.member? name = some v := by
  revert h
  refine List.foldlRecOn s.parameters
    (motive := fun values => Entries.get? values name = some v → input.member? name = some v) _
    nofun ?_
  intro values ih p _ h
  rcases hmember : input.member? p.name with _ | w
  · rw [hmember] at h
    exact ih h
  · rw [hmember, Entries.get?_insert] at h
    split at h
    · rename_i hname
      rw [← hname, hmember, h]
    · exact ih h

/-- **The input brings its fields for the parameters**, and nothing else. -/
theorem get?_inputValues (s : ToolStep) (input : Json) (name : String) :
    Entries.get? (s.inputValues input) name =
      if ∃ p ∈ s.parameters, p.name = name then input.member? name else none := by
  have hhas : (Entries.get? (s.inputValues input) name).isSome = true ↔
      (∃ p ∈ s.parameters, p.name = name) ∧ (input.member? name).isSome = true :=
    has_inputValues_iff
  rcases hget : Entries.get? (s.inputValues input) name with _ | v
  · rw [hget] at hhas
    split
    · rename_i hp
      rcases hmember : input.member? name with _ | v
      · rfl
      · cases hhas.mpr ⟨hp, by rw [hmember, Option.isSome_some]⟩
    · rfl
  · rw [hget] at hhas
    rw [if_pos (hhas.mp rfl).1, member?_of_get?_inputValues hget]

/-- The values before any mapping are those that the call fixes and those that the input brings. -/
theorem has_givenValues_iff :
    Entries.has (s.givenValues input) name = true ↔ s.overrides.has name = true ∨
      (∃ p ∈ s.parameters, p.name = name) ∧ (input.member? name).isSome = true := by
  have hfold : Entries.has (s.givenValues input) name = true ↔
      (∃ m ∈ s.overrides, m.1 = name) ∨ Entries.has (s.inputValues input) name = true :=
    Entries.has_foldl_insert_iff s.overrides (s.inputValues input)
  rw [hfold, has_inputValues_iff, Entries.has_iff_mem_names, Entries.names, List.mem_map]

/-- **Mappings add the names that their targets start with**, and no others. -/
theorem exists_members_of_applyMappings {step : ℕ} {response : Json} {mappings : List ParsedMapping}
    (hheads : ∀ m ∈ mappings, (m.target.headField?).isSome = true) {members : Members}
    {after : Json} (h : applyMappings step response mappings (.obj members) = .ok after) :
    ∃ members', after = .obj members' ∧ ∀ name, Entries.has members' name = true ↔
      Entries.has members name = true ∨ ∃ m ∈ mappings, m.target.headField? = some name := by
  induction mappings generalizing members with
  | nil =>
    cases h
    exact ⟨members, rfl, by simp⟩
  | cons m rest ih =>
    obtain ⟨hhead, hrest⟩ := List.forall_mem_cons.mp hheads
    obtain ⟨head, hhead⟩ := Option.isSome_iff_exists.mp hhead
    rw [applyMappings] at h
    split at h
    · cases h
    · rename_i part _
      obtain ⟨inner, e?, hinject⟩ := FieldPath.inject_of_headField? hhead part members
      rw [hinject] at h
      rcases e? with _ | e
      · obtain ⟨members', rfl, hnames⟩ := ih hrest h
        refine ⟨members', rfl, fun name => ?_⟩
        rw [hnames, Entries.has_insert_iff, List.exists_mem_cons_iff, hhead, Option.some_inj,
          eq_comm]
        tauto
      · cases h

/-- **The names that have a value**: those that the call fixes, the parameters that the input
brings, and, if there was a call before, those that the mappings write to. -/
theorem has_values_iff {step : ℕ} {previous? : Option Json} {values : Members}
    (hheads : ∀ m ∈ s.mappings, (m.target.headField?).isSome = true)
    (h : s.values step input previous? = .ok values) :
    Entries.has values name = true ↔ s.overrides.has name = true ∨
      ((∃ p ∈ s.parameters, p.name = name) ∧ (input.member? name).isSome = true) ∨
      (previous?.isSome = true ∧ ∃ m ∈ s.mappings, m.target.headField? = some name) := by
  rcases previous? with _ | response
  · cases h
    simp [has_givenValues_iff]
  · rw [ToolStep.values] at h
    rcases happly : applyMappings step response s.mappings (.obj (s.givenValues input)) with
      e | after
    · rw [happly] at h
      cases h
    · obtain ⟨members', rfl, hnames⟩ := exists_members_of_applyMappings hheads happly
      rw [happly] at h
      cases h
      rw [hnames, has_givenValues_iff]
      simp [or_assoc]

end ToolStep

end CallChain
