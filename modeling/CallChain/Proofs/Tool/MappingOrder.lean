import CallChain.Proofs.Path.Commuting
import CallChain.Proofs.Result
import CallChain.Tool.Request

/-!
# The order of mappings

The mappings of a call are applied one after another, and each of them may have to do with what an
earlier one has left. When no target continues another one, it has not: whatever the order, the
values come out the same, unless an array is appended to before the elements in front are there
(`CallChain.ToolStep.mappings_commute`).

Not every order that is between two others has to succeed, so it does not do to go from one order to
another by exchanging neighbours. Instead the second order is followed from its beginning, and in
the first order each of its mappings is brought to the front
(`CallChain.ToolStep.applyMappings_bring_front`).
-/

set_option autoImplicit false

namespace CallChain

/-- **Mappings that do not meet**: neither target continues the other. -/
def ParsedMapping.Apart (m m' : ParsedMapping) : Prop :=
  ¬m.target <+: m'.target ∧ ¬m'.target <+: m.target

instance (m m' : ParsedMapping) : Decidable (m.Apart m') :=
  inferInstanceAs (Decidable (_ ∧ _))

theorem ParsedMapping.Apart.symm {m m' : ParsedMapping} (h : m.Apart m') : m'.Apart m :=
  ⟨h.2, h.1⟩

namespace ToolStep

variable {step : ℕ} {response values after : Json} {m : ParsedMapping}
  {mappings mappings' front back rest : List ParsedMapping}

/-- **A mapping is applied** when its part is found and can be written. -/
theorem applyMappings_cons_eq_ok_iff :
    applyMappings step response (m :: rest) values = .ok after ↔
      ∃ part mid, m.source.extract response = some part ∧
        m.target.inject part values = (mid, none) ∧
        applyMappings step response rest mid = .ok after := by
  rw [applyMappings]
  rcases m.source.extract response with _ | part
  · simp
  · rcases hinject : m.target.inject part values with ⟨mid, _ | e⟩
    · simp [hinject]
    · simp [hinject]

/-- **A later mapping may be brought to the front**, unless it is past the end of an array there. -/
theorem applyMappings_bring_front (hapart : ∀ x ∈ front, x.Apart m)
    (h : applyMappings step response (front ++ m :: back) values = .ok after) :
    ∃ part, m.source.extract response = some part ∧
      ((∃ mid, m.target.inject part values = (mid, none) ∧
        applyMappings step response (front ++ back) mid = .ok after) ∨
      ∃ i length, m.target.obstacle? values = some (.pastEnd i length)) := by
  induction front generalizing values with
  | nil =>
    obtain ⟨part, mid, hpart, hmid, hback⟩ := applyMappings_cons_eq_ok_iff.mp h
    exact ⟨part, hpart, Or.inl ⟨mid, hmid, hback⟩⟩
  | cons x front ih =>
    obtain ⟨hx, hfront⟩ := List.forall_mem_cons.mp hapart
    obtain ⟨xpart, xmid, hxpart, hxmid, hlater⟩ := applyMappings_cons_eq_ok_iff.mp h
    obtain ⟨part, hpart, hcases⟩ := ih hfront hlater
    refine ⟨part, hpart, ?_⟩
    -- Behind the first mapping this one can be brought to the front; now it has to pass the first.
    cases FieldPath.crossing hx.1 hx.2 hxmid part with
    | @commute other both hother hboth hback =>
      rcases hcases with ⟨mid, hmid, hrest⟩ | ⟨i, length, hpast⟩
      · obtain ⟨rfl, -⟩ := Prod.mk.inj (hboth.symm.trans hmid)
        exact Or.inl ⟨other, hother,
          applyMappings_cons_eq_ok_iff.mpr ⟨xpart, both, hxpart, hback, hrest⟩⟩
      · rw [FieldPath.obstacle?_eq_none_iff.mpr ⟨both, hboth⟩] at hpast
        cases hpast
    | blocked hblocked =>
      rcases hcases with ⟨mid, hmid, -⟩ | ⟨i, length, hpast⟩
      · rw [FieldPath.obstacle?_eq_none_iff.mpr ⟨mid, hmid⟩] at hblocked
        cases hblocked
      · rw [hpast] at hblocked
        cases hblocked
    | early i length hearly => exact Or.inr ⟨i, length, hearly⟩

/-- **Mappings that do not meet may be applied in any order**: the outcome is the same, or an index
is past the end of an array in this order. -/
theorem applyMappings_of_perm (hperm : mappings'.Perm mappings)
    (hapart : mappings.Pairwise ParsedMapping.Apart)
    (h : applyMappings step response mappings values = .ok after) :
    applyMappings step response mappings' values = .ok after ∨
      ∃ path steps index length, applyMappings step response mappings' values =
        .error (.injectFailed step (.indexOutOfRange path steps index length)) := by
  induction mappings' generalizing mappings values with
  | nil =>
    rw [hperm.nil_eq] at *
    exact Or.inl h
  | cons m rest ih =>
    obtain ⟨front, back, rfl⟩ := List.append_of_mem (hperm.subset List.mem_cons_self)
    have hrest : rest.Perm (front ++ back) :=
      (hperm.trans List.perm_middle).cons_inv
    have hcons : (m :: (front ++ back)).Pairwise ParsedMapping.Apart :=
      (List.perm_middle.pairwise_iff ParsedMapping.Apart.symm).mp hapart
    obtain ⟨hm, hothers⟩ := List.pairwise_cons.mp hcons
    have hfront : ∀ x ∈ front, x.Apart m :=
      fun x hx => (hm x (List.mem_append_left _ hx)).symm
    obtain ⟨part, hpart, ⟨mid, hmid, hlater⟩ | ⟨i, length, hpast⟩⟩ :=
      applyMappings_bring_front hfront h
    · refine (ih hrest hothers hlater).imp (fun hok => ?_) ?_
      · exact applyMappings_cons_eq_ok_iff.mpr ⟨part, mid, hpart, hmid, hok⟩
      · rintro ⟨path, steps, index, length, herror⟩
        refine ⟨path, steps, index, length, ?_⟩
        rw [applyMappings, hpart]
        simp only [hmid]
        exact herror
    · -- The mapping comes too early in this order.
      obtain ⟨k, hk⟩ := FieldPath.exists_snd_injectFrom_eq m.target part 0 m.target values
      rw [hpast] at hk
      rcases hinject : m.target.inject part values with ⟨left, e?⟩
      obtain rfl : e? = some (.indexOutOfRange m.target k i length) :=
        (congrArg Prod.snd hinject).symm.trans hk
      refine Or.inr ⟨m.target, k, i, length, ?_⟩
      rw [applyMappings, hpart]
      simp only [hinject]

/-- A call with other mappings. -/
def withMappings (s : ToolStep) (mappings : List ParsedMapping) : ToolStep :=
  { s with mappings := mappings }

variable {s : ToolStep} {input : Json} {previous? : Option Json} {members : Members}

/-- Mappings with the same outcome give the same values. -/
theorem values_withMappings_of_eq
    (h : applyMappings step response mappings (.obj (s.givenValues input)) =
      applyMappings step response s.mappings (.obj (s.givenValues input))) :
    (s.withMappings mappings).values step input (some response) =
      s.values step input (some response) := by
  have hgiven : (s.withMappings mappings).givenValues input = s.givenValues input := rfl
  have hmappings : (s.withMappings mappings).mappings = mappings := rfl
  rw [values, values, hgiven, hmappings, h]

/-- Where the mappings fail there are no values. -/
theorem values_of_applyMappings_eq_error {e : ToolError}
    (h : applyMappings step response s.mappings (.obj (s.givenValues input)) = .error e) :
    s.values step input (some response) = .error e := by
  rw [values, h]

/-- **The values of a call do not depend on the order of mappings that do not meet.** -/
theorem values_withMappings_of_perm (hperm : mappings.Perm s.mappings)
    (hapart : s.mappings.Pairwise ParsedMapping.Apart)
    (h : s.values step input previous? = .ok members) :
    (s.withMappings mappings).values step input previous? = .ok members ∨
      ∃ path steps index length, (s.withMappings mappings).values step input previous? =
        .error (.injectFailed step (.indexOutOfRange path steps index length)) := by
  rcases previous? with _ | response
  · exact Or.inl h
  · rcases happly : applyMappings step response s.mappings (.obj (s.givenValues input)) with
      e | after
    · rw [values_of_applyMappings_eq_error happly] at h
      cases h
    · rcases applyMappings_of_perm hperm hapart happly with
        hother | ⟨path, steps, index, length, hother⟩
      · exact Or.inl ((values_withMappings_of_eq (hother.trans happly.symm)).trans h)
      · exact Or.inr ⟨path, steps, index, length,
          values_of_applyMappings_eq_error (s := s.withMappings mappings) hother⟩

/-- **The order of mappings matters in two ways only.** Writings at paths neither of which continues
the other lead to the same value, wherever they succeed in both orders. So if the targets of the
mappings of a call do not meet and the call gets a request, then in any other order of the mappings
it gets the same request, or an array is appended to too early in that order. -/
theorem mappings_commute :
    (∀ (p q : FieldPath) (v w root a b ab ba : Json), ¬p <+: q → ¬q <+: p →
      p.inject v root = (a, none) → q.inject w a = (ab, none) →
      q.inject w root = (b, none) → p.inject v b = (ba, none) → ab = ba) ∧
    ∀ (s : ToolStep) (mappings : List ParsedMapping), mappings.Perm s.mappings →
      s.mappings.Pairwise ParsedMapping.Apart →
      ∀ (step : ℕ) (input : Json) (previous? : Option Json) (request : Request),
        s.request step input previous? = .ok request →
        (s.withMappings mappings).request step input previous? = .ok request ∨
          ∃ path steps index length, (s.withMappings mappings).request step input previous? =
            .error (.injectFailed step (.indexOutOfRange path steps index length)) := by
  constructor
  · intro p q v w root a b ab ba hpq hqp ha hab hb hba
    cases FieldPath.crossing hpq hqp ha w with
    | @commute other both hother hboth hback =>
      obtain ⟨rfl, -⟩ := Prod.mk.inj (hb.symm.trans hother)
      obtain ⟨rfl, -⟩ := Prod.mk.inj (hab.symm.trans hboth)
      exact (Prod.mk.inj (hback.symm.trans hba)).1
    | blocked hblocked =>
      rw [FieldPath.obstacle?_eq_none_iff.mpr ⟨ab, hab⟩] at hblocked
      cases hblocked
    | early i length hearly =>
      rw [FieldPath.obstacle?_eq_none_iff.mpr ⟨b, hb⟩] at hearly
      cases hearly
  · intro s mappings hperm hapart step input previous? request hrequest
    obtain ⟨members, hvalues, hplaced⟩ := bind_eq_ok_iff.mp hrequest
    refine (values_withMappings_of_perm hperm hapart hvalues).imp (fun hother => ?_) ?_
    · exact bind_eq_ok_iff.mpr ⟨members, hother, hplaced⟩
    · rintro ⟨path, steps, index, length, hother⟩
      exact ⟨path, steps, index, length, bind_eq_error_iff.mpr (Or.inl hother)⟩

namespace Bulk

/-- A call that takes the first two ids of a response as its own, and a name. -/
def bulk : ToolStep where
  nodeId := "bulk"
  apiId := "bulk"
  method := .post
  path := "/bulk"
  parameters := [⟨"ids", .body, true, .obj []⟩, ⟨"name", .body, true, .obj []⟩]
  mappings := [⟨[.field "items", .index 0], [.field "ids", .index 0]⟩,
    ⟨[.field "items", .index 1], [.field "ids", .index 1]⟩, ⟨[.field "name"], [.field "name"]⟩]

/-- The name comes first. -/
def nameFirst : List ParsedMapping :=
  [⟨[.field "name"], [.field "name"]⟩, ⟨[.field "items", .index 0], [.field "ids", .index 0]⟩,
    ⟨[.field "items", .index 1], [.field "ids", .index 1]⟩]

/-- The second id comes before the first. -/
def secondFirst : List ParsedMapping :=
  [⟨[.field "items", .index 1], [.field "ids", .index 1]⟩,
    ⟨[.field "items", .index 0], [.field "ids", .index 0]⟩, ⟨[.field "name"], [.field "name"]⟩]

/-- The response of the call before. -/
def answer : Json := .obj [("items", .arr [.str "a", .str "b"]), ("name", .str "N")]

/-- The request of the call. -/
def sent : Request where
  method := .post
  path := "/bulk"
  body := some (.obj [("ids", .arr [.str "a", .str "b"]), ("name", .str "N")])

end Bulk

open Bulk in
/-- **Two orders of three mappings.** The second id cannot be written before the first; the name
can. Where the first id has a place already, both orders lead to the same value. -/
theorem mappings_commute_bulk :
    bulk.request 1 (.obj []) (some answer) = .ok sent ∧
      ((bulk.withMappings nameFirst).request 1 (.obj []) (some answer) = .ok sent ∨
        ∃ path steps index length,
          (bulk.withMappings nameFirst).request 1 (.obj []) (some answer) =
            .error (.injectFailed 1 (.indexOutOfRange path steps index length))) ∧
      (bulk.withMappings secondFirst).request 1 (.obj []) (some answer) =
        .error (.injectFailed 1 (.indexOutOfRange [.field "ids", .index 1] 1 1 0)) ∧
      ∀ ab ba, FieldPath.inject [.field "ids", .index 1] (.str "b")
          (.obj [("ids", .arr [.str "a"])]) = (ab, none) →
        FieldPath.inject [.field "ids", .index 0] (.str "a")
          (.obj [("ids", .arr [.null, .str "b"])]) = (ba, none) → ab = ba := by
  have hrequest : bulk.request 1 (.obj []) (some answer) = .ok sent := by
    with_unfolding_all rfl
  obtain ⟨hpaths, horders⟩ := mappings_commute
  refine ⟨hrequest, ?_, by with_unfolding_all rfl, fun ab ba hab hba => ?_⟩
  · exact horders bulk nameFirst (by decide) (by decide) 1 _ _ _ hrequest
  · exact hpaths [.field "ids", .index 0] [.field "ids", .index 1] (.str "a") (.str "b")
      (.obj [("ids", .arr [.null])])
      _ _ _ _ (by decide) (by decide) rfl hab rfl hba

end ToolStep

end CallChain
