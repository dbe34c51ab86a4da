import CallChain.Proofs.Json.Decoding
import CallChain.Verification.Wire

/-!
# What a client sees of a verdict

A verdict is read as it was written (`CallChain.Verdict.Storable.restores`), with one exception: an
output that is null is written as null, and null reads as a missing output
(`CallChain.Verdict.received`). A failure has its kind as a member among the others, which is taken
out before the others are read (`CallChain.Failure.restores_kind`).

So the verdict on an outcome is what a client sees unless a tool answered with null
(`CallChain.Outcome.Storable.decode_judge`).
-/

set_option autoImplicit false

namespace CallChain

open Source

/-! ### Failures -/

namespace Failure

/-- **A failure that can be written**: the number of its step has sixty-four bits. -/
def Storable : Failure → Prop
  | .stepFailed step _ => step < Nat.pow 2 64
  | .mismatch _ => True
  | .timedOut _ => True
  | .crashed _ => True

/-- **The kind is found among the members, and the others are its fields.** -/
theorem restores_kind {kind : String} {f : Fields Failure} {fields : List (String × Document)}
    {a : Failure} (hkind : variants.lookup kind = some f)
    (hnames : (fields.map (·.1)).Sublist f.spellings.flatten)
    (hnodup : ("kind" :: f.spellings.flatten).Nodup) (hf : f.Restores fields a) :
    Failure.decoder.Restores (.record (("kind", .str kind) :: fields)) a := by
  obtain ⟨hother, hspellings⟩ := List.nodup_cons.mp hnodup
  have hfields : ∀ f ∈ fields, f.1 ≠ "kind" := by
    intro f hf heq
    exact hother (hnames.subset (heq ▸ List.mem_map_of_mem (f := (·.1)) hf))
  intro dialect s hs
  obtain ⟨start, members, close, rfl, hmembers⟩ :=
    hs.exists_eq_record (hnodup.sublist (hnames.cons_cons "kind"))
  -- The member that is found shows the kind, since no other field has its name.
  obtain ⟨m, hm, hname, -⟩ := hmembers.exists_of_mem List.mem_cons_self
  obtain ⟨⟨k, tag, settled⟩, hfind⟩ : ∃ m, members.find? (fun m => m.1.text = "kind") = some m :=
    Option.isSome_iff_exists.mp (List.find?_isSome.mpr ⟨m, hm, decide_eq_true hname⟩)
  have hk : k.text = "kind" := by simpa using List.find?_some hfind
  obtain ⟨doc, hdoc, htag⟩ := hmembers.exists_field (List.mem_of_find?_eq_some hfind)
  obtain rfl : doc = .str kind := by
    rcases List.mem_cons.mp hdoc with heq | hlater
    · exact (Prod.mk.inj heq).2
    · exact absurd hk (hfields _ hlater)
  obtain ⟨span, rfl⟩ := htag.holds.exists_eq_str
  -- The other members show the other fields.
  have hrest : ShowsFields (members.filter fun m => m.1.text ≠ "kind") fields := by
    have hkept : fields.filter (fun f => f.1 ≠ "kind") = fields :=
      List.filter_eq_self.mpr fun f hf => decide_eq_true (hfields f hf)
    have h := hmembers.filter (fun name => name ≠ "kind")
    rwa [List.filter_cons_of_neg (by simp), hkept] at h
  have hobject := Decoder.fromObject_eq_ok hnames hspellings hf dialect hrest close
  have hvariant : variantNamed (.scalar (.str kind) span) =
      .ok ("struct variant RunFailure::" ++ kind, f) := by
    simp only [variantNamed, Decoder.spelled, hkind]
    rfl
  rw [Failure.decoder]
  simp only [hfind, hvariant]
  exact hobject

theorem Storable.restores {f : Failure} (h : f.Storable) :
    Failure.decoder.Restores f.document f := by
  cases f with
  | stepFailed step status =>
    refine restores_kind rfl (List.Sublist.refl ["stepIndex", "statusCode"]) (by decide) ?_
    exact ((Fields.restores_pure Failure.stepFailed).ap
      (Fields.restores_required (by simp) (Decoder.restores_word "usize" h))).ap
      (Fields.restores_required (by simp) (Decoder.restores_word16 status))
  | mismatch reason =>
    refine restores_kind rfl (List.Sublist.refl ["reason"]) (by decide) ?_
    exact (Fields.restores_pure Failure.mismatch).ap
      (Fields.restores_required (by simp) (Decoder.restores_string reason))
  | timedOut timeout =>
    refine restores_kind rfl (List.Sublist.refl ["timeoutMs"]) (by decide) ?_
    exact (Fields.restores_pure Failure.timedOut).ap
      (Fields.restores_required (by simp) (Decoder.restores_word64 timeout))
  | crashed text =>
    refine restores_kind rfl (List.Sublist.refl ["message"]) (by decide) ?_
    exact (Fields.restores_pure Failure.crashed).ap
      (Fields.restores_required (by simp) (Decoder.restores_string text))

end Failure

theorem Status.restores (s : Status) : Status.decoder.Restores (.str s.text) s :=
  Decoder.restores_variant (by cases s <;> rfl)

/-! ### Verdicts -/

namespace Verdict

/-- **A verdict that can be written.** -/
structure Storable (v : Verdict) : Prop where
  output : ∀ j, v.output? = some j → j.Canonical
  failure : ∀ f, v.failure? = some f → f.Storable

/-- **What a client makes of a verdict**: an output that is null is none. -/
def received (v : Verdict) : Verdict :=
  { v with output? := v.output?.filter fun output => !output.isNull }

theorem received_output?_of_null {v : Verdict} (h : v.output? = some .null) :
    v.received.output? = none := by
  rw [received, h]
  rfl

theorem received_output?_of_ne {v : Verdict} (h : v.output? ≠ some .null) :
    v.received.output? = v.output? := by
  obtain ⟨status, elapsed, output?, failure?⟩ := v
  cases output? with
  | none => rfl
  | some output =>
    cases output with
    | null => exact absurd rfl h
    | bool | num | str | arr | obj => rfl

/-- **A client sees the verdict as it is** unless its output is null. -/
theorem received_eq_self_iff {v : Verdict} : v.received = v ↔ v.output? ≠ some .null := by
  constructor
  · intro h hnull
    have hnone := received_output?_of_null hnull
    rw [h, hnull] at hnone
    cases hnone
  · intro h
    have hsame := received_output?_of_ne h
    obtain ⟨status, elapsed, output?, failure?⟩ := v
    exact congrArg (fun output? => Verdict.mk status elapsed output? failure?) hsame

/-- **A verdict is read as it was written**, up to an output that is null. -/
theorem Storable.restores {v : Verdict} (h : v.Storable) :
    Verdict.decoder.Restores v.document v.received := by
  have houtput : ∀ output, v.output? = some output →
      (Decoder.option Decoder.any).Restores (.value output) v.received.output? := by
    intro output heq
    by_cases hnull : output = .null
    · rw [received_output?_of_null (hnull ▸ heq), hnull]
      exact Decoder.restores_option_null _
    · have hother : v.output? ≠ some .null := fun h => hnull (Option.some_inj.mp (heq ▸ h))
      rw [received_output?_of_ne hother, heq]
      exact (Decoder.restores_any (h.output output heq)).option fun h => hnull (by injection h)
  refine Decoder.restores_record ?_ (by decide) ?_
  · simp only [outcomeFields, List.map_append, Document.map_fst_optional, List.map_cons]
    split_ifs <;> decide
  · refine ((((Fields.restores_pure Verdict.mk).ap
      (Fields.restores_required (by simp) v.status.restores)).ap
      (Fields.restores_required (by simp) (Decoder.restores_word64 v.elapsed))).ap
      (Fields.restores_unlessNone (v.output?.map .value) (by simp +contextual [outcomeFields])
        (fun doc hdoc => ?_) fun hnone => ?_)).ap
      (Fields.restores_unlessMissing (by simp +contextual [outcomeFields])
        (fun hnone => ?_) fun f hf => ⟨(h.failure f hf).restores, by cases f <;> nofun⟩)
    · obtain ⟨output, heq, rfl⟩ := Option.map_eq_some_iff.mp hdoc
      exact houtput output heq
    · have hmissing : v.output? = none := Option.map_eq_none_iff.mp hnone
      have hother : v.output? ≠ some .null := by
        rw [hmissing]
        nofun
      refine ⟨?_, (received_output?_of_ne hother).trans hmissing⟩
      simp [outcomeFields, hmissing, Document.optional]
    · simp [outcomeFields, hnone, Document.optional]

end Verdict

/-! ### Verdicts on outcomes -/

/-- **An outcome that can occur**: its output is in canonical form, and the number of a step has
sixty-four bits. -/
def Outcome.Storable : Outcome → Prop
  | .completed output => output.Canonical
  | .toolFailed (.stepFailed step _) => step < Nat.pow 2 64
  | _ => True

namespace Outcome

variable {outcome : Outcome}

/-- The output of a verdict is the output of the run. -/
theorem output?_judge_eq_some_iff {expected? : Option Expectation} {timeout elapsed : UInt64}
    {output : Json} :
    (judge outcome expected? timeout elapsed).output? = some output ↔
      outcome = .completed output := by
  cases outcome with
  | completed found =>
    have hfound : (judge (.completed found) expected? timeout elapsed).output? = some found := by
      simp only [judge]
      split <;> rfl
    rw [hfound, Option.some_inj, completed.injEq]
  | toolFailed error =>
    have hnone : (judge (.toolFailed error) expected? timeout elapsed).output? = none := by
      cases error with
      | stepFailed =>
        simp only [judge]
        split <;> rfl
      | invalidInput | missingParameter | missingMappedValue | injectFailed | transport => rfl
    simp [hnone]
  | crashed => simp [judge]
  | timedOut => simp [judge]

/-- The verdict on an outcome that can occur can be written. -/
theorem Storable.storable_judge (h : outcome.Storable) (expected? : Option Expectation)
    (timeout elapsed : UInt64) : (judge outcome expected? timeout elapsed).Storable where
  output := by
    intro output houtput
    obtain rfl := output?_judge_eq_some_iff.mp houtput
    exact h
  failure := by
    intro f hf
    cases outcome with
    | completed output =>
      simp only [judge] at hf
      split at hf
      · cases hf
      · cases hf
        trivial
    | toolFailed error =>
      cases error with
      | stepFailed step status =>
        simp only [judge] at hf
        split at hf
        · cases hf
        · cases hf
          exact h
      | invalidInput | missingParameter | missingMappedValue | injectFailed | transport =>
        cases hf
        trivial
    | crashed | timedOut =>
      cases hf
      trivial

/-- **A client sees the verdict on every outcome but null**: what was written of the verdict is
read as the verdict, in which an output that is null counts as none. -/
theorem Storable.decode_judge (h : outcome.Storable) (expected? : Option Expectation)
    (timeout elapsed : UInt64) :
    let v := judge outcome expected? timeout elapsed
    decodeValue Verdict.decoder v.document.toJson = .ok v.received ∧
      (decodeValue Verdict.decoder v.document.toJson = .ok v ↔ outcome ≠ .completed .null) := by
  intro v
  have hdecode : decodeValue Verdict.decoder v.document.toJson = .ok v.received :=
    (h.storable_judge expected? timeout elapsed).restores.decodeValue_toJson_eq_ok
  refine ⟨hdecode, ?_⟩
  rw [hdecode, Except.ok.injEq, Verdict.received_eq_self_iff, ne_eq, output?_judge_eq_some_iff]

/-- The failure of a step is seen as it is. -/
theorem decode_judge_stepFailed :
    Storable (.toolFailed (.stepFailed 1 503)) ∧
      decodeValue Verdict.decoder
          (judge (.toolFailed (.stepFailed 1 503)) none 60000 12).document.toJson =
        .ok { status := .failed, elapsed := 12, failure? := some (.stepFailed 1 503) } := by
  have hstorable : Storable (.toolFailed (.stepFailed 1 503)) := by
    show 1 < Nat.pow 2 64
    decide
  exact ⟨hstorable, (hstorable.decode_judge none 60000 12).2.mpr nofun⟩

/-- **A tool that answered with null** is seen as one that has no output. -/
theorem decode_judge_null :
    decodeValue Verdict.decoder (judge (.completed .null) none 60000 0).document.toJson =
        .ok { status := .passed, elapsed := 0 } ∧
      decodeValue Verdict.decoder (judge (.completed .null) none 60000 0).document.toJson ≠
        .ok (judge (.completed .null) none 60000 0) := by
  have hseen : decodeValue Verdict.decoder (judge (.completed .null) none 60000 0).document.toJson =
      .ok { status := .passed, elapsed := 0 } := rfl
  refine ⟨hseen, fun h => ?_⟩
  -- The verdict has an output, and what is read has none.
  have hsame := Except.ok.inj (hseen.symm.trans h)
  cases congrArg Verdict.output? hsame

end Outcome

end CallChain
