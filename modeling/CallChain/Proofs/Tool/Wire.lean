import CallChain.Proofs.Json.Decoding
import CallChain.Proofs.Path.Display
import CallChain.Tool.Wire

/-!
# Stored tools

A tool that was written is read as that tool (`CallChain.Tool.Storable.decodeText_eq_ok`), part by
part: ids, methods, locations, parameters, mappings and steps. This takes a tool whose parts can be
written (`CallChain.Tool.Storable`): mappings have paths that come from texts and are not empty, and
free values are in canonical form.
-/

set_option autoImplicit false

namespace CallChain

/-! ### Ids -/

namespace Uuid

theorem toNat_lt_of_isLowerHex {c : Char} (hc : isLowerHex c = true) : c.toNat < 103 := by
  simp only [isLowerHex, Char.isDigit, Bool.or_eq_true, Bool.and_eq_true, decide_eq_true_eq,
    Char.le_def, UInt32.le_iff_toNat_le, ge_iff_le] at hc
  have hnine : '9'.val.toNat = 57 := rfl
  have hf : 'f'.val.toNat = 102 := rfl
  have hvalue : c.toNat = c.val.toNat := rfl
  omega

/-- A digit of an id stays as it is in lower case. -/
theorem toLower_of_isLowerHex {c : Char} (hc : isLowerHex c = true) : c.toLower = c := by
  have hall : ∀ n < 103, isLowerHex (Char.ofNat n) = true →
      (Char.ofNat n).toLower = Char.ofNat n := by decide
  have h := hall c.toNat (toNat_lt_of_isLowerHex hc)
  rw [Char.ofNat_toNat] at h
  exact h hc

theorem ne_of_isLowerHex {c other : Char} (hother : isLowerHex other = false)
    (hc : isLowerHex c = true) : c ≠ other := by
  rintro rfl
  exact Bool.false_ne_true (hother.symm.trans hc)

/-- The digits of an id are what is left of its groups without the hyphens. -/
theorem filter_grouped {ds : List Char} (hds : ∀ c ∈ ds, isLowerHex c = true) :
    (grouped ds).filter (· != '-') = ds := by
  have hkept : ∀ cs : List Char, (∀ c ∈ cs, c ∈ ds) → cs.filter (· != '-') = cs := by
    intro cs hcs
    refine List.filter_eq_self.mpr fun c hc => ?_
    exact bne_iff_ne.mpr (ne_of_isLowerHex (by decide) (hds c (hcs c hc)))
  have hgroup : ∀ n m, ((ds.drop n).take m).filter (· != '-') = (ds.drop n).take m :=
    fun n m => hkept _ fun c hc => List.mem_of_mem_drop (List.mem_of_mem_take hc)
  have hsplit : ∀ n m, (ds.drop n).take m ++ ds.drop (n + m) = ds.drop n := by
    intro n m
    rw [← List.drop_drop, List.take_append_drop]
  have hfirst : (ds.take 8).filter (· != '-') = ds.take 8 :=
    hkept _ fun c hc => List.mem_of_mem_take hc
  have hlast : (ds.drop 20).filter (· != '-') = ds.drop 20 :=
    hkept _ fun c hc => List.mem_of_mem_drop hc
  simp only [grouped, List.filter_append, List.filter_cons, bne_self_eq_false, Bool.false_eq_true,
    if_false, hgroup, hfirst, hlast, List.append_assoc]
  rw [hsplit 16 4, hsplit 12 4, hsplit 8 4, List.take_append_drop]

theorem length_grouped {ds : List Char} (h : ds.length = 32) : (grouped ds).length = 36 := by
  simp [grouped, h]

/-- **What is written of an id is read as that id.** -/
theorem parse_text (u : Uuid) : parse u.text = .ok u := by
  obtain ⟨ds, hlength, hvalid⟩ := u
  have hds : ∀ c ∈ ds, isLowerHex c = true := List.all_eq_true.mp hvalid
  have hcs : (grouped ds).length = 36 := length_grouped hlength
  -- Nothing stands around the groups: they start with a digit.
  obtain ⟨d, more, rfl⟩ : ∃ d more, ds = d :: more :=
    List.exists_cons_of_length_pos (by omega)
  have hd := hds d List.mem_cons_self
  have hbare : bare (grouped (d :: more)) = (grouped (d :: more), 0, true) := by
    have hbrace : d ≠ '\x7b' := ne_of_isLowerHex (by decide) hd
    have hu : 'u' ≠ d := (ne_of_isLowerHex (by decide) hd).symm
    simp [bare, grouped, hbrace, hu]
  have hlower : (d :: more).map Char.toLower = d :: more :=
    (List.map_congr_left fun c hc => toLower_of_isLowerHex (hds c hc)).trans (List.map_id _)
  have hhex : (d :: more).all isHex = true := by
    rw [List.all_eq_true]
    intro c hc
    rw [isHex, hds c hc]
    rfl
  have hgrouped : ofGrouped? (grouped (d :: more)) = some ⟨d :: more, hlength, hvalid⟩ := by
    rw [ofGrouped?, filter_grouped hds]
    simp only [hhex, decide_true, Bool.and_self, if_true, ofDigits?, hlower]
    exact dif_pos ⟨hlength, hvalid⟩
  rw [parse, text, String.toList_ofList, hbare]
  simp only [hcs, hgrouped]
  rfl

theorem restores (u : Uuid) : decoder.Restores (.str u.text) u := by
  intro dialect s hs
  obtain ⟨span, rfl⟩ := hs.holds.exists_eq_str
  delta decoder
  simp only [parse_text]

end Uuid

/-! ### What is left out when it is empty -/

namespace Document

theorem listUnlessEmpty_eq (name : String) (items : List Document) :
    listUnlessEmpty name items =
      optional name (if items.isEmpty then none else some (.list items)) := by
  rw [listUnlessEmpty]
  split <;> rfl

theorem membersUnlessEmpty_eq (name : String) (members : Members) :
    membersUnlessEmpty name members =
      optional name (if members.isEmpty then none else some (.value (.obj members))) := by
  rw [membersUnlessEmpty]
  split <;> rfl

theorem map_fst_listUnlessEmpty (name : String) (items : List Document) :
    (listUnlessEmpty name items).map (·.1) = if items.isEmpty then [] else [name] := by
  rw [listUnlessEmpty]
  split <;> rfl

theorem map_fst_membersUnlessEmpty (name : String) (members : Members) :
    (membersUnlessEmpty name members).map (·.1) = if members.isEmpty then [] else [name] := by
  rw [membersUnlessEmpty]
  split <;> rfl

end Document

namespace Fields

variable {α : Type} {fields : List (String × Document)} {name : String}

/-- Members that are left out when there are none. -/
theorem restores_membersUnlessEmpty {members : Members} (h : (Json.obj members).Canonical)
    (hfields : ∀ f ∈ Document.membersUnlessEmpty name members, f ∈ fields)
    (homitted : members = [] → name ∉ fields.map (·.1)) :
    (optional name Decoder.freeMembers []).Restores fields members := by
  rw [Document.membersUnlessEmpty_eq] at hfields
  refine restores_unlessNone _ hfields (fun doc hdoc => ?_) fun hnone => ?_
  · cases members with
    | nil => cases hdoc
    | cons m more =>
      cases hdoc
      exact Decoder.restores_freeMembers h
  · cases members with
    | nil => exact ⟨homitted rfl, rfl⟩
    | cons m more => cases hnone

/-- A list that is left out when it is empty. -/
theorem restores_listUnlessEmpty {d : Decoder α} {write : α → Document} {as : List α}
    (h : ∀ a ∈ as, d.Restores (write a) a)
    (hfields : ∀ f ∈ Document.listUnlessEmpty name (as.map write), f ∈ fields)
    (homitted : as = [] → name ∉ fields.map (·.1)) :
    (optional name (Decoder.list d) []).Restores fields as := by
  rw [Document.listUnlessEmpty_eq] at hfields
  refine restores_unlessNone _ hfields (fun doc hdoc => ?_) fun hnone => ?_
  · cases as with
    | nil => cases hdoc
    | cons a more =>
      cases hdoc
      exact Decoder.restores_list h
  · cases as with
    | nil => exact ⟨homitted rfl, rfl⟩
    | cons a more => cases hnone

end Fields

/-! ### Parts of a step -/

theorem Method.restores (m : Method) : Method.decoder.Restores (.str m.text) m :=
  Decoder.restores_variant (by cases m <;> rfl)

theorem Location.restores (l : Location) : Location.decoder.Restores (.str l.text) l :=
  Decoder.restores_variant (by cases l <;> rfl)

theorem Parameter.restores {p : Parameter} (h : p.schema.Canonical) :
    Parameter.decoder.Restores p.document p := by
  have hname := Decoder.restores_string p.name
  have hlocation := p.location.restores
  have hrequired := Decoder.restores_bool p.required
  have hschema := Decoder.restores_any h
  refine Decoder.restores_record ?_ (by decide) ?_
  · show List.Sublist ["name", "in", "required", "schema"] _
    decide
  · exact ((((Fields.restores_pure Parameter.mk).ap
      (Fields.restores_required (by simp) hname)).ap
      (Fields.restores_field (by simp) (by simp) hlocation)).ap
      (Fields.restores_optional (by simp) hrequired)).ap
      (Fields.restores_optional (by simp) hschema)

/-- **A mapping that can be written**: its paths come from texts and are not empty. -/
structure ParsedMapping.Storable (m : ParsedMapping) : Prop where
  source : m.source.Obtained ∧ m.source ≠ []
  target : m.target.Obtained ∧ m.target ≠ []

theorem ParsedMapping.Storable.restores {m : ParsedMapping} (h : m.Storable) (name : String) :
    (ParsedMapping.decoder name).Restores m.document m := by
  have hsource := h.source.1.restores h.source.2
  have htarget := h.target.1.restores h.target.2
  refine Decoder.restores_record (List.Sublist.refl ["from", "to"]) (by decide) ?_
  exact ((Fields.restores_pure ParsedMapping.mk).ap
    (Fields.restores_required (by simp) hsource)).ap
    (Fields.restores_required (by simp) htarget)

/-! ### Steps and tools -/

/-- **A call that can be written.** -/
structure ToolStep.Storable (s : ToolStep) : Prop where
  schemas : ∀ p ∈ s.parameters, p.schema.Canonical
  overrides : (Json.obj s.overrides).Canonical
  mappings : ∀ m ∈ s.mappings, m.Storable

theorem ToolStep.Storable.restores {s : ToolStep} (h : s.Storable) :
    ToolStep.decoder.Restores s.document s := by
  have hparameters : (Decoder.list Parameter.decoder).Restores
      (.list (s.parameters.map Parameter.document)) s.parameters :=
    Decoder.restores_list fun p hp => Parameter.restores (h.schemas p hp)
  have hmappings : ∀ m ∈ s.mappings,
      (ParsedMapping.decoder "struct StepMapping").Restores m.document m :=
    fun m hm => (h.mappings m hm).restores _
  refine Decoder.restores_record ?_ (by decide) ?_
  · simp only [List.map_append, Document.map_fst_listUnlessEmpty,
      Document.map_fst_membersUnlessEmpty, List.map_cons, List.map_nil]
    split_ifs <;> decide
  · exact (((((((Fields.restores_pure ToolStep.mk).ap
      (Fields.restores_required (by simp) (Decoder.restores_string s.nodeId))).ap
      (Fields.restores_required (by simp) (Decoder.restores_string s.apiId))).ap
      (Fields.restores_required (by simp) s.method.restores)).ap
      (Fields.restores_required (by simp) (Decoder.restores_string s.path))).ap
      (Fields.restores_required (by simp) hparameters)).ap
      (Fields.restores_membersUnlessEmpty h.overrides (by simp +contextual)
        (by simp +contextual [Document.membersUnlessEmpty, Document.map_fst_listUnlessEmpty]))).ap
      (Fields.restores_listUnlessEmpty hmappings (by simp +contextual)
        (by simp +contextual [Document.listUnlessEmpty, Document.map_fst_membersUnlessEmpty]))

/-- **A tool that can be written.** -/
structure Tool.Storable (t : Tool) : Prop where
  inputSchema : t.inputSchema.Canonical
  outputSchema : t.outputSchema.Canonical
  steps : ∀ s ∈ t.steps, s.Storable

namespace Tool.Storable

variable {t : Tool}

theorem restores (h : t.Storable) : Tool.decoder.Restores t.document t := by
  have hsteps : (Decoder.list ToolStep.decoder).Restores
      (.list (t.steps.map ToolStep.document)) t.steps :=
    Decoder.restores_list fun s hs => (h.steps s hs).restores
  refine Decoder.restores_record (List.Sublist.refl
    ["id", "name", "description", "inputSchema", "outputSchema", "steps"]) (by decide) ?_
  exact ((((((Fields.restores_pure Tool.mk).ap
    (Fields.restores_required (by simp) t.id.restores)).ap
    (Fields.restores_required (by simp) (Decoder.restores_string t.name))).ap
    (Fields.restores_required (by simp) (Decoder.restores_string t.description))).ap
    (Fields.restores_required (by simp) (Decoder.restores_any h.inputSchema))).ap
    (Fields.restores_required (by simp) (Decoder.restores_any h.outputSchema))).ap
    (Fields.restores_required (by simp) hsteps)

/-- **A tool is read from its text**, if the text reads back. -/
theorem decodeText_eq_ok (h : t.Storable) (hreads : t.document.inOrder.ReadsBack) :
    decodeText Tool.decoder t.document.text = .ok t :=
  h.restores.decodeText_eq_ok hreads

end Tool.Storable

end CallChain
