import CallChain.Proofs.Tool.Origin
import CallChain.Verification.Wire

/-!
# Stored test cases

What was written of a test case or of a request to run test cases is read as the same
(`CallChain.TestCase.Storable.restores`, `CallChain.VerifyRequest.Storable.restores`), and whatever
is read is fit to be written. An expectation is an object with one member, whose name says which
kind it is (`CallChain.Expectation.restores_single`).
-/

set_option autoImplicit false

namespace CallChain

/-! ### Expectations -/

namespace Expectation

/-- **An expectation that can be written**: its value is in canonical form. -/
def Storable : Expectation → Prop
  | .equals value => value.Canonical
  | .subset value => value.Canonical
  | .predicate _ => True
  | .stepFailure _ _ => True

/-- **What a kind holds is found under its name.** -/
theorem restores_single {name : String} {kind : Kind} {doc : Document} {e : Expectation}
    (hkind : kinds.lookup name = some kind) (hcontents : (contents kind).Restores doc e) :
    decoderOption.Restores (.record [(name, doc)]) (some e) := by
  intro dialect s hs
  obtain ⟨start, members, close, rfl, hmembers⟩ := hs.exists_eq_record (List.nodup_singleton _)
  obtain ⟨k, settled, inner, rfl, rfl, hinner⟩ := hmembers.exists_eq_singleton
  have hspelled : Decoder.spelled kinds k.text k.settled = .ok kind := by
    rw [Decoder.spelled, hkind]
  simp only [decoderOption, hspelled, bind, Except.bind, hcontents dialect inner hinner,
    List.isEmpty_nil, if_true]
  rfl

theorem restores_failure (step : UInt64) (status : UInt16) :
    failureDecoder.Restores (.record [
      ("step_index", .nat step.toNat), ("status_code", .nat status.toNat)])
      (.stepFailure step status) := by
  refine Decoder.restores_record (List.Sublist.refl ["step_index", "status_code"]) (by decide) ?_
  exact ((Fields.restores_pure Expectation.stepFailure).ap
    (Fields.restores_required (by simp) (Decoder.restores_count step))).ap
    (Fields.restores_required (by simp) (Decoder.restores_word16 status))

theorem Storable.restores {e : Expectation} (h : e.Storable) :
    decoderOption.Restores e.document (some e) := by
  cases e with
  | equals value => exact restores_single rfl ((Decoder.restores_any h).map Expectation.equals)
  | subset value => exact restores_single rfl ((Decoder.restores_any h).map Expectation.subset)
  | predicate expression =>
    exact restores_single rfl ((Decoder.restores_string expression).map Expectation.predicate)
  | stepFailure step status => exact restores_single rfl (restores_failure step status)

theorem yields_contents (kind : Kind) : (contents kind).Yields Storable := by
  cases kind with
  | equals => exact Decoder.yields_any.map fun value hvalue => hvalue
  | subset => exact Decoder.yields_any.map fun value hvalue => hvalue
  | predicate => exact (Decoder.yields_true _).map fun _ _ => trivial
  | stepFailure =>
    refine Decoder.yields_record (((Fields.yields_pure ?_).ap
      (Fields.yields_required (Decoder.yields_true _))).ap
      (Fields.yields_required (Decoder.yields_true _)))
    exact fun step _ status _ => trivial

theorem yields_decoderOption :
    decoderOption.Yields fun expected? => ∀ e, expected? = some e → e.Storable := by
  intro dialect s expected? h
  rw [decoderOption.eq_def] at h
  split at h
  · cases h
    nofun
  · cases h
  · split_ifs at h
    · cases h
      nofun
  · rename_i name inner _ more _
    obtain ⟨kind, -, h⟩ := bind_eq_ok_iff.mp h
    obtain ⟨e, he, h⟩ := bind_eq_ok_iff.mp h
    split_ifs at h
    · cases h
      rintro _ ⟨⟩
      exact yields_contents kind dialect inner e he
  · cases h
  · cases h

end Expectation

/-! ### Test cases -/

/-- **A test case that can be written.** -/
structure TestCase.Storable (c : TestCase) : Prop where
  input : c.input.Canonical
  expected : ∀ e, c.expected? = some e → e.Storable

/-- **A test case is read as it was written.** -/
theorem TestCase.Storable.restores {c : TestCase} (h : c.Storable) :
    TestCase.decoder.Restores c.document c := by
  refine Decoder.restores_record ?_ (by decide) ?_
  · simp only [Document.map_fst_optional, List.map_cons]
    split_ifs <;> decide
  · refine ((Fields.restores_pure TestCase.mk).ap
      (Fields.restores_optional (by simp) (Decoder.restores_any h.input))).ap
      (Fields.restores_unlessNone (c.expected?.map Expectation.document) (by simp +contextual)
        (fun doc hdoc => ?_) fun hnone => ?_)
    · obtain ⟨e, he, rfl⟩ := Option.map_eq_some_iff.mp hdoc
      rw [he]
      exact (h.expected e he).restores
    · exact ⟨by simp [Document.optional, hnone], Option.map_eq_none_iff.mp hnone⟩

theorem TestCase.yields_decoder : TestCase.decoder.Yields TestCase.Storable := by
  refine Decoder.yields_record (((Fields.yields_pure ?_).ap
    (Fields.yields_optional Decoder.yields_any Json.canonical_obj_nil)).ap
    (Fields.yields_optional Expectation.yields_decoderOption nofun))
  exact fun input hinput expected? hexpected => ⟨hinput, hexpected⟩

/-- **A request to run test cases that can be written.** -/
structure VerifyRequest.Storable (r : VerifyRequest) : Prop where
  tool : r.tool.Storable
  cases : ∀ c ∈ r.cases, c.Storable

/-- **A request to run test cases is read as it was written.** -/
theorem VerifyRequest.Storable.restores {r : VerifyRequest} (h : r.Storable) :
    VerifyRequest.decoder.Restores r.document r := by
  have hcases : (Decoder.list TestCase.decoder).Restores
      (.list (r.cases.map TestCase.document)) r.cases :=
    Decoder.restores_list fun c hc => (h.cases c hc).restores
  refine Decoder.restores_record (List.Sublist.refl ["tool", "testInputs"]) (by decide) ?_
  exact ((Fields.restores_pure VerifyRequest.mk).ap
    (Fields.restores_required (by simp) h.tool.restores)).ap
    (Fields.restores_required (by simp) hcases)

theorem VerifyRequest.yields_decoder : VerifyRequest.decoder.Yields VerifyRequest.Storable := by
  refine Decoder.yields_record (((Fields.yields_pure ?_).ap
    (Fields.yields_required Tool.yields_decoder)).ap
    (Fields.yields_required TestCase.yields_decoder.list))
  exact fun tool htool cases hcases => ⟨htool, hcases⟩

end CallChain
