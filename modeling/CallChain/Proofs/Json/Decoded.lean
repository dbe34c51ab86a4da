import CallChain.Proofs.Json.Shape
import CallChain.Proofs.Result

/-!
# What a decoder yields

Whatever it is given, a decoder yields values of a certain kind only (`CallChain.Decoder.Yields`).
Free values are in canonical form, the items of a list are what the decoder of the items yields,
and a record is made of what its fields yield, whether these are taken by name or by place or are
left out (`CallChain.Fields.Yields`). Decoders are made of decoders, so there is one rule for each
way to make one.

Nothing is said of what a decoder is given, so this holds of texts that nobody wrote on purpose:
members in any order, a name given twice, a list in place of an object.
-/

set_option autoImplicit false

namespace CallChain

/-! ### Free values -/

theorem Json.canonical_obj_nil : (Json.obj []).Canonical := ⟨.nil, trivial⟩

/-- Members made of pairs with values in canonical form are in canonical form. -/
theorem Json.canonical_ofPairs {pairs : List (String × Json)}
    (h : ∀ p ∈ pairs, p.2.Canonical) : (Json.ofPairs pairs).Canonical :=
  canonical_obj_iff.mpr
    ⟨Entries.ordered_ofPairs pairs, fun m hm => h m (Entries.mem_of_mem_ofPairs hm)⟩

namespace Decoder

/-- A value without parts is in canonical form. -/
theorem canonical_scalarJson (v : Scalar) : (Source.scalarJson v).Canonical := by
  cases v <;> trivial

/-- A plain scalar is a value without parts, if it is one. -/
theorem canonical_of_plainValue {text : String} {j : Json} (h : plainValue text = .ok j) :
    j.Canonical := by
  revert h
  fun_cases plainValue text <;> intro h <;> cases h <;> trivial

theorem canonical_of_taggedValue {tag : NodeTag} {text : String} {j : Json}
    (h : taggedValue tag text = .ok j) : j.Canonical := by
  revert h
  fun_cases taggedValue tag text <;> intro h <;> cases h <;> trivial

mutual

/-- **A free value is in canonical form**, whatever it was read from. -/
theorem canonical_of_anyFrom : ∀ {s : Source} {j : Json}, anyFrom s = .ok j → j.Canonical
  | .scalar v _, _, h => by
    cases h
    exact canonical_scalarJson v
  | .plain _, _, h => canonical_of_plainValue h
  | .tagged tag inner, j, h => by
    have ih : anyFrom inner = .ok j → j.Canonical := canonical_of_anyFrom
    rw [anyFrom.eq_def] at h
    -- A tag settles how a text is read; from all else it is dropped, unless it has a name.
    split at h
    case h_3 | h_4 => exact canonical_of_taggedValue h
    case h_5 => cases h
    case h_6 heq =>
      cases heq
      exact ih h
    all_goals rename_i heq; cases heq
  | .list _ items close, _, h => by
    rw [anyFrom] at h
    obtain ⟨values, hvalues, h⟩ := bind_eq_ok_iff.mp h
    cases close with
    | error fault => cases h
    | ok place =>
      cases h
      exact canonicalItems_of_anyItems hvalues
  | .record _ members close, _, h => by
    rw [anyFrom] at h
    obtain ⟨values, hvalues, h⟩ := bind_eq_ok_iff.mp h
    cases close with
    | error fault => cases h
    | ok place =>
      cases h
      exact Json.canonical_ofPairs (canonical_of_anyPairs hvalues)
  | .broken _ fault, _, h => by cases h

theorem canonicalItems_of_anyItems : ∀ {items : List (Source × Mark)} {js : List Json},
    anyItems items = .ok js → Json.CanonicalItems js
  | [], _, h => by
    cases h
    trivial
  | (s, _) :: rest, _, h => by
    rw [anyItems] at h
    obtain ⟨j, hj, h⟩ := bind_eq_ok_iff.mp h
    obtain ⟨js, hjs, h⟩ := bind_eq_ok_iff.mp h
    cases h
    exact ⟨canonical_of_anyFrom hj, canonicalItems_of_anyItems hjs⟩

theorem canonical_of_anyPairs : ∀ {members : List (MemberName × Source × Mark)}
    {pairs : List (String × Json)}, anyPairs members = .ok pairs → ∀ p ∈ pairs, p.2.Canonical
  | [], _, h => by
    cases h
    nofun
  | (k, s, _) :: rest, _, h => by
    rw [anyPairs] at h
    obtain ⟨j, hj, h⟩ := bind_eq_ok_iff.mp h
    obtain ⟨js, hjs, h⟩ := bind_eq_ok_iff.mp h
    cases h
    exact List.forall_mem_cons.mpr ⟨canonical_of_anyFrom hj, canonical_of_anyPairs hjs⟩

end

/-! ### Decoders -/

variable {α β : Type}

/-- **All that a decoder yields is of a kind**, whatever it is given. -/
def Yields (d : Decoder α) (P : α → Prop) : Prop :=
  ∀ (dialect : Dialect) (s : Source) (a : α), d dialect s = .ok a → P a

theorem yields_true (d : Decoder α) : d.Yields fun _ => True := fun _ _ _ _ => trivial

theorem yields_any : any.Yields Json.Canonical := fun _ _ _ h => canonical_of_anyFrom h

/-- What was refined has passed the check. -/
theorem yields_refine (d : Decoder α) {check : α → Except String β} {P : β → Prop}
    (h : ∀ a b, check a = .ok b → P b) : (d.refine check).Yields P := by
  intro dialect s b hb
  obtain ⟨a, -, hb⟩ := bind_eq_ok_iff.mp hb
  split at hb
  · rename_i b' hcheck
    cases hb
    exact h a b hcheck
  · cases hb

theorem Yields.map {d : Decoder α} {P : α → Prop} {Q : β → Prop} (hd : d.Yields P) {f : α → β}
    (h : ∀ a, P a → Q (f a)) : (d.map f).Yields Q := by
  intro dialect s b hb
  obtain ⟨a, ha, rfl⟩ := except_map_eq_ok_iff.mp hb
  exact h a (hd dialect s a ha)

theorem Yields.items {d : Decoder α} {P : α → Prop} (hd : d.Yields P) {dialect : Dialect}
    {entries : List (Source × Mark)} {as : List α} (h : Decoder.items d dialect entries = .ok as) :
    ∀ a ∈ as, P a := by
  induction entries generalizing as with
  | nil =>
    cases h
    nofun
  | cons e rest ih =>
    obtain ⟨s, settled⟩ := e
    rw [Decoder.items] at h
    split at h
    · cases h
    · rename_i a ha
      obtain ⟨more, hmore, rfl⟩ := except_map_eq_ok_iff.mp h
      exact List.forall_mem_cons.mpr ⟨hd dialect s a ha, ih hmore⟩

/-- **The items of a list are what the decoder of the items yields.** -/
theorem Yields.list {d : Decoder α} {P : α → Prop} (hd : d.Yields P) :
    (list d).Yields fun as => ∀ a ∈ as, P a := by
  intro dialect s as h
  rw [Decoder.list] at h
  split at h
  · rename_i entries close _
    obtain ⟨values, hvalues, h⟩ := bind_eq_ok_iff.mp h
    cases close with
    | error fault => cases h
    | ok place =>
      cases h
      exact hd.items hvalues
  · cases h
    nofun
  · cases h

theorem Yields.members {d : Decoder α} {P : α → Prop} (hd : d.Yields P) {dialect : Dialect}
    {entries : List (MemberName × Source × Mark)} {pairs : List (String × α)}
    (h : Decoder.members d dialect entries = .ok pairs) : ∀ p ∈ pairs, P p.2 := by
  induction entries generalizing pairs with
  | nil =>
    cases h
    nofun
  | cons e rest ih =>
    obtain ⟨k, s, settled⟩ := e
    rw [Decoder.members] at h
    split at h
    · cases h
    · rename_i a ha
      obtain ⟨more, hmore, rfl⟩ := except_map_eq_ok_iff.mp h
      exact List.forall_mem_cons.mpr ⟨hd dialect s a ha, ih hmore⟩

/-- The values of a map are what the decoder of the values yields. -/
theorem Yields.pairs {d : Decoder α} {P : α → Prop} (hd : d.Yields P) :
    (pairs d).Yields fun ps => ∀ p ∈ ps, P p.2 := by
  intro dialect s ps h
  rw [Decoder.pairs] at h
  split at h
  · rename_i entries close _
    obtain ⟨values, hvalues, h⟩ := bind_eq_ok_iff.mp h
    cases close with
    | error fault => cases h
    | ok place =>
      cases h
      exact hd.members hvalues
  · cases h
    nofun
  · cases h

/-- **A table is in order**, and its values are what the decoder of the values yields. -/
theorem Yields.table {d : Decoder α} {P : α → Prop} (hd : d.Yields P) :
    ((Decoder.pairs d).map Entries.ofPairs).Yields
      fun entries => Entries.Ordered entries ∧ ∀ p ∈ entries, P p.2 := by
  intro dialect s entries h
  obtain ⟨ps, hps, rfl⟩ := except_map_eq_ok_iff.mp h
  exact ⟨Entries.ordered_ofPairs ps,
    fun p hp => hd.pairs dialect s ps hps p (Entries.mem_of_mem_ofPairs hp)⟩

theorem yields_freeMembers : freeMembers.Yields fun members => (Json.obj members).Canonical :=
  fun dialect s members h => Json.canonical_obj_iff.mpr (yields_any.table dialect s members h)

end Decoder

/-! ### Records -/

namespace Fields

variable {α β : Type}

/-- **All that fields yield is of a kind**, whether they are taken by name or by place. -/
structure Yields (f : Fields α) (P : α → Prop) : Prop where
  members : ∀ (dialect : Dialect) (members : List (MemberName × Source × Mark)) (a : α),
    (f.fromMembers dialect members).value? = some a → P a
  items : ∀ (dialect : Dialect) (taken : ℕ) (items : List (Source × Mark)) (a : α) (now : ℕ)
    (rest : List (Source × Mark)), f.fromItems dialect taken items = .ok (a, now, rest) → P a

theorem yields_pure {a : α} {P : α → Prop} (h : P a) : (Fields.pure a).Yields P where
  members := by
    intro dialect members b hb
    cases hb
    exact h
  items := by
    intro dialect taken items b now rest hb
    cases hb
    exact h

/-- Fields of a function yield what takes the argument's kind to the result's kind. -/
theorem Yields.ap {f : Fields (α → β)} {x : Fields α} {P : α → Prop} {Q : β → Prop}
    (hf : f.Yields fun g => ∀ a, P a → Q (g a)) (hx : x.Yields P) : (Fields.ap f x).Yields Q where
  members := by
    intro dialect members b h
    simp only [Fields.ap] at h
    split at h
    · rename_i g a hg ha
      cases h
      exact hf.members dialect members g hg a (hx.members dialect members a ha)
    · cases h
  items := by
    intro dialect taken items b now rest h
    simp only [Fields.ap] at h
    split at h
    · cases h
    · rename_i g taken' items' hg
      split at h
      · cases h
      · rename_i a now' rest' ha
        cases h
        exact hf.items dialect taken items g _ _ hg a (hx.items dialect _ _ a _ _ ha)

/-- **A field yields what its decoder yields, or its default.** -/
theorem yields_field {name : String} {aliases : List String} {d : Decoder α} {default? : Option α}
    {P : α → Prop} (hd : d.Yields P) (hdefault : ∀ a, default? = some a → P a) :
    (field name aliases d default?).Yields P where
  members := by
    intro dialect members a h
    simp only [field] at h
    split at h
    · split at h
      · cases h
        exact hdefault a rfl
      · cases h
    · split at h
      · rename_i a' ha
        cases h
        exact hd dialect _ _ ha
      · cases h
  items := by
    intro dialect taken items a now rest h
    simp only [field] at h
    split at h
    · split at h
      · cases h
        exact hdefault a rfl
      · cases h
    · split at h
      · rename_i a' ha
        cases h
        exact hd dialect _ _ ha
      · cases h

theorem yields_required {name : String} {d : Decoder α} {P : α → Prop} (hd : d.Yields P) :
    (required name d).Yields P :=
  yields_field hd nofun

theorem yields_optional {name : String} {d : Decoder α} {fallback : α} {P : α → Prop}
    (hd : d.Yields P) (hfallback : P fallback) : (optional name d fallback).Yields P :=
  yields_field hd fun _ h => Option.some_inj.mp h ▸ hfallback

end Fields

/-- **A record yields what its fields yield.** -/
theorem Decoder.yields_record {α : Type} {name : String} {f : Fields α} {P : α → Prop}
    (hf : f.Yields P) : (Decoder.record name f).Yields P := by
  have hobject : ∀ dialect members close a,
      fromObject f dialect members close = .ok a → P a := by
    intro dialect members close a h
    simp only [fromObject] at h
    split at h
    · cases h
    · split at h
      · cases h
      · split at h
        · rename_i hvalue
          cases h
          exact hf.members dialect members _ hvalue
        · cases h
        · cases h
  intro dialect s a h
  rw [Decoder.record] at h
  split at h
  · exact hobject _ _ _ _ h
  · split at h
    · cases h
    · rw [fromArray] at h
      split at h
      · cases h
      · split at h <;> cases h
      · rename_i hitems
        split at h
        · cases h
        · cases h
          exact hf.items dialect 0 _ _ _ _ hitems
      · split at h <;> cases h
  · exact hobject _ _ _ _ h
  · cases h

end CallChain
