import CallChain.Proofs.Json.Reading
import CallChain.Proofs.Json.Shown
import Mathlib.Data.List.Nodup

/-!
# Decoding what was written

A decoder restores a value from a document when it finds the value in every source that shows the
document (`CallChain.Decoder.Restores`), be it the text of the document or the value that it
denotes. Decoders are made of decoders, and so are the proofs that they restore something: there is
one rule for each way to make a decoder. The fields of a record have rules of their own
(`CallChain.Fields.Restores`): a field is found by its name among members whose names are
different, and a field that was left out has its default.

What is restored from a document is decoded from the value that it denotes
(`CallChain.Decoder.Restores.decodeValue_toJson_eq_ok`), and from its text, if the text reads back
(`CallChain.Decoder.Restores.decodeText_eq_ok`).
-/

set_option autoImplicit false

namespace CallChain

open Source

variable {α β : Type}

/-! ### Plain things -/

namespace Decoder

/-- **A decoder restores a value from a document**: it finds it in every source that shows the
document. -/
def Restores (d : Decoder α) (doc : Document) (a : α) : Prop :=
  ∀ (dialect : Dialect) (s : Source), s.Shows doc → d dialect s = .ok a

/-- **What a document restores is decoded from its text.** -/
theorem Restores.decodeText_eq_ok {d : Decoder α} {doc : Document} {a : α} (h : d.Restores doc a)
    (hreads : doc.inOrder.ReadsBack) : decodeText d doc.text = .ok a := by
  obtain ⟨s, hsource, hs⟩ := hreads
  have hdecode := h .text s (Or.inl hs)
  rw [decodeText, Document.text, hsource]
  simp only [hdecode]

/-- What a document restores is decoded from its value in declared order. -/
theorem Restores.decodeValue_eq_ok {d : Decoder α} {doc : Document} {a : α} (h : d.Restores doc a) :
    decodeValue d doc.inOrder = .ok a :=
  h .value _ (Or.inl (holds_ofJson _))

/-- **What a document restores is decoded from the value that it denotes.** -/
theorem Restores.decodeValue_toJson_eq_ok {d : Decoder α} {doc : Document} {a : α}
    (h : d.Restores doc a) : decodeValue d doc.toJson = .ok a :=
  h .value _ (shows_ofJson_toJson doc)

theorem restores_string (text : String) : string.Restores (.str text) text := by
  intro dialect s hs
  obtain ⟨span, rfl⟩ := hs.holds.exists_eq_str
  rfl

theorem restores_bool (b : Bool) : bool.Restores (.value (.bool b)) b := by
  intro dialect s hs
  obtain ⟨span, rfl⟩ := hs.holds.exists_eq_bool
  rfl

theorem restores_any {j : Json} (hj : j.Canonical) : any.Restores (.value j) j :=
  fun _ _ hs => anyFrom_of_holds hs.holds hj

theorem restores_word (name : String) {bound n : ℕ} (h : n < bound) :
    (word name bound).Restores (.nat n) n := by
  intro dialect s hs
  obtain ⟨span, rfl⟩ := hs.holds.exists_eq_num
  exact if_pos h

/-- A value that is changed after it was read. -/
theorem Restores.map {d : Decoder α} {doc : Document} {a : α} (h : d.Restores doc a) (f : α → β) :
    (d.map f).Restores doc (f a) := by
  intro dialect s hs
  rw [Decoder.map, h dialect s hs]
  rfl

theorem restores_word16 (n : UInt16) : word16.Restores (.nat n.toNat) n := by
  have h := (restores_word "u16" n.toNat_lt).map Nat.toUInt16
  rwa [Nat.toUInt16_eq, UInt16.ofNat_toNat] at h

theorem restores_word64 (n : UInt64) : word64.Restores (.nat n.toNat) n := by
  have h := (restores_word "u64" n.toNat_lt).map Nat.toUInt64
  rwa [Nat.toUInt64_eq, UInt64.ofNat_toNat] at h

theorem restores_count (n : UInt64) : count.Restores (.nat n.toNat) n := by
  have h := (restores_word "usize" n.toNat_lt).map Nat.toUInt64
  rwa [Nat.toUInt64_eq, UInt64.ofNat_toNat] at h

/-- A text that a type accepts. -/
theorem Restores.refine {d : Decoder α} {doc : Document} {a : α} (h : d.Restores doc a)
    {check : α → Except String β} {b : β} (hcheck : check a = .ok b) :
    (d.refine check).Restores doc b := by
  intro dialect s hs
  rw [Decoder.refine, h dialect s hs]
  simp only [bind, Except.bind, hcheck]

/-- One of several names. -/
theorem restores_variant {known : List (String × α)} {name : String} {a : α}
    (h : known.lookup name = some a) : (variant known).Restores (.str name) a := by
  intro dialect s hs
  obtain ⟨span, rfl⟩ := hs.holds.exists_eq_str
  simp only [variant, spelled, h]

/-! ### Options -/

theorem restores_option_null (d : Decoder α) : (option d).Restores (.value .null) none := by
  intro dialect s hs
  obtain ⟨span, rfl⟩ := hs.holds.exists_eq_null
  rfl

/-- **A value that is there**, unless null is written for it. -/
theorem Restores.option {d : Decoder α} {doc : Document} {a : α} (h : d.Restores doc a)
    (hdoc : doc ≠ .value .null) : (option d).Restores doc (some a) := by
  intro dialect s hs
  rw [Decoder.option, h dialect s hs]
  · rfl
  · rintro span rfl
    exact hdoc hs.eq_null
  · rintro text rfl
    exact not_shows_plain hs
  · rintro text rfl
    exact not_shows_tagged hs

/-! ### Lists and maps -/

theorem items_eq_ok {d : Decoder α} {write : α → Document} {as : List α} (dialect : Dialect)
    {entries : List (Source × Mark)}
    (hentries : List.Forall₂ (fun item a => item.1.Shows (write a)) entries as)
    (h : ∀ a ∈ as, d.Restores (write a) a) : Decoder.items d dialect entries = .ok as := by
  induction hentries with
  | nil => rfl
  | @cons item a _ _ hitem _ ih =>
    have ha := h a List.mem_cons_self dialect _ hitem
    have hrest := ih fun b hb => h b (List.mem_cons_of_mem _ hb)
    simp only [Decoder.items, ha, hrest, Except.map]

/-- A list of values each of which is restored. -/
theorem restores_list {d : Decoder α} {write : α → Document} {as : List α}
    (h : ∀ a ∈ as, d.Restores (write a) a) : (list d).Restores (.list (as.map write)) as := by
  intro dialect s hs
  obtain ⟨start, entries, close, rfl, hentries⟩ := hs.exists_eq_list
  have hitems := items_eq_ok dialect (List.forall₂_map_right_iff.mp hentries) h
  simp only [list, Source.bare, hitems]
  rfl

theorem members_eq_ok {d : Decoder α} {write : α → Document} {entries : Entries α}
    (dialect : Dialect) {members : List (MemberName × Source × Mark)}
    (hmembers : List.Forall₂ (fun m p => m.1.text = p.1 ∧ m.2.1.Shows (write p.2)) members entries)
    (h : ∀ p ∈ entries, d.Restores (write p.2) p.2) :
    Decoder.members d dialect members = .ok entries := by
  induction hmembers with
  | nil => rfl
  | @cons m p _ _ hm _ ih =>
    have hp := h p List.mem_cons_self dialect _ hm.2
    have hrest := ih fun q hq => h q (List.mem_cons_of_mem _ hq)
    simp only [Decoder.members, hp, hrest, Except.map, hm.1]

/-- **A table of values each of which is restored.** -/
theorem restores_table {d : Decoder α} {write : α → Document} {entries : Entries α}
    (hordered : Entries.Ordered entries) (h : ∀ p ∈ entries, d.Restores (write p.2) p.2) :
    ((pairs d).map Entries.ofPairs).Restores
      (.record (entries.map fun p => (p.1, write p.2))) entries := by
  intro dialect s hs
  have hfields : Entries.Ordered (entries.map fun p => (p.1, write p.2)) := by
    rwa [Entries.Ordered, List.map_map]
  obtain ⟨start, members, close, rfl, hmembers⟩ := hs.exists_eq_record_of_ordered hfields
  have hvalues := members_eq_ok dialect (List.forall₂_map_right_iff.mp hmembers) h
  simp only [Decoder.map, pairs, Source.bare, hvalues]
  exact congrArg Except.ok (Entries.ofPairs_eq_self hordered)

/-- A table of free values. -/
theorem restores_freeMembers {members : Members} (h : (Json.obj members).Canonical) :
    freeMembers.Restores (.value (.obj members)) members := by
  obtain ⟨hordered, hvalues⟩ := Json.canonical_obj_iff.mp h
  -- The table is written as one value, which is what its entries one by one would be.
  have hwritten : (Document.record (members.map fun m => (m.1, .value m.2))).inOrder =
      .obj members := by
    rw [Document.inOrder_record, List.map_map]
    exact congrArg Json.obj (List.map_id members)
  intro dialect s hs
  exact restores_table hordered (fun m hm => restores_any (hvalues m hm)) dialect s
    (Or.inl (hwritten ▸ hs.holds))

end Decoder

/-! ### Fields -/

theorem Document.map_fst_optional (name : String) (field : Option Document) :
    (optional name field).map (·.1) = if field.isNone then [] else [name] := by
  cases field <;> rfl

namespace Fields

/-- **Fields restore a value from the fields of a document** with different names: they find it
among members that show them. -/
def Restores (f : Fields α) (fields : List (String × Document)) (a : α) : Prop :=
  (fields.map (·.1)).Nodup →
    ∀ (dialect : Dialect) (members : List (MemberName × Source × Mark)),
      ShowsFields members fields → f.fromMembers dialect members = { value? := some a }

variable {fields : List (String × Document)}

theorem restores_pure (a : α) : (Fields.pure a).Restores fields a :=
  fun _ _ _ _ => rfl

theorem Restores.ap {f : Fields (α → β)} {x : Fields α} {g : α → β} {a : α}
    (hf : f.Restores fields g) (hx : x.Restores fields a) :
    (Fields.ap f x).Restores fields (g a) := by
  intro hnodup dialect members hmembers
  have hfunction := hf hnodup dialect members hmembers
  have hargument := hx hnodup dialect members hmembers
  simp only [Fields.ap, hfunction, hargument, List.append_nil]

/-- Members with other names do not count. -/
theorem filterMap_zipIdx_eq_nil {names : List String}
    {members : List (MemberName × Source × Mark)} (h : ∀ m ∈ members, m.1.text ∉ names) (n : ℕ) :
    (members.zipIdx n).filterMap (fun (m, i) => if m.1.text ∈ names then some (i, m) else none) =
      [] := by
  rw [List.filterMap_eq_nil_iff]
  rintro ⟨m, i⟩ hm
  exact if_neg (h m (List.fst_mem_of_mem_zipIdx hm))

/-- One member has one of the names. -/
theorem occurrences_eq_singleton {names : List String}
    {before after : List (MemberName × Source × Mark)} {m : MemberName × Source × Mark}
    (hm : m.1.text ∈ names) (hbefore : ∀ m' ∈ before, m'.1.text ∉ names)
    (hafter : ∀ m' ∈ after, m'.1.text ∉ names) :
    occurrences names (before ++ m :: after) = [(before.length, m)] := by
  rw [occurrences, List.zipIdx_append, List.filterMap_append, filterMap_zipIdx_eq_nil hbefore,
    List.zipIdx_cons, List.filterMap_cons, filterMap_zipIdx_eq_nil hafter]
  simp [hm]

/-- **A field that was written is found by its name**, if no field has another spelling of it. -/
theorem restores_field {name : String} {aliases : List String} {d : Decoder α}
    {default? : Option α} {doc : Document} {a : α} (hdoc : (name, doc) ∈ fields)
    (haliases : ∀ other ∈ aliases, other ∉ fields.map (·.1)) (hd : d.Restores doc a) :
    (field name aliases d default?).Restores fields a := by
  intro hnodup dialect members hmembers
  obtain ⟨m, hm, hname, hshows⟩ := hmembers.exists_of_mem hdoc
  obtain ⟨before, after, rfl⟩ := List.append_of_mem hm
  -- No other member has one of the spellings.
  have hother : ∀ m' ∈ before ++ after, m'.1.text ∉ name :: aliases := by
    intro m' hm' hspelled
    rw [← hmembers.perm_names.nodup_iff, List.map_append, List.map_cons, List.nodup_middle,
      List.nodup_cons, ← List.map_append] at hnodup
    rcases List.mem_cons.mp hspelled with heq | halias
    · rw [hname, ← heq] at hnodup
      exact hnodup.1 (List.mem_map_of_mem (f := (·.1.text)) hm')
    · have hmem : m' ∈ before ++ m :: after := by
        rw [List.mem_append] at hm' ⊢
        exact hm'.imp_right (List.mem_cons_of_mem _)
      exact haliases _ halias (hmembers.mem_names hmem)
  have hfound : occurrences (name :: aliases) (before ++ m :: after) = [(before.length, m)] :=
    occurrences_eq_singleton (hname ▸ List.mem_cons_self)
      (fun m' h => hother m' (List.mem_append_left _ h))
      (fun m' h => hother m' (List.mem_append_right _ h))
  simp only [field, hfound, hd dialect _ hshows]

theorem restores_required {name : String} {d : Decoder α} {doc : Document} {a : α}
    (hdoc : (name, doc) ∈ fields) (hd : d.Restores doc a) :
    (required name d).Restores fields a :=
  restores_field hdoc (by simp) hd

/-- A field with a default that was written. -/
theorem restores_optional {name : String} {d : Decoder α} {fallback : α} {doc : Document} {a : α}
    (hdoc : (name, doc) ∈ fields) (hd : d.Restores doc a) :
    (optional name d fallback).Restores fields a :=
  restores_field hdoc (by simp) hd

/-- A field that was left out is not found. -/
theorem occurrences_eq_nil {name : String} (h : name ∉ fields.map (·.1))
    {members : List (MemberName × Source × Mark)} (hmembers : ShowsFields members fields) :
    occurrences [name] members = [] := by
  refine filterMap_zipIdx_eq_nil (fun m hm hspelled => h ?_) 0
  rw [← List.mem_singleton.mp hspelled]
  exact hmembers.mem_names hm

/-- A field that was left out has its default. -/
theorem restores_optional_of_notMem {name : String} {d : Decoder α} (fallback : α)
    (h : name ∉ fields.map (·.1)) : (optional name d fallback).Restores fields fallback := by
  intro _ dialect members hmembers
  simp only [optional, field, occurrences_eq_nil h hmembers]

/-- **A field that is left out when there is nothing to write.** Then its value is the default. -/
theorem restores_unlessNone {name : String} {d : Decoder α} {fallback a : α}
    (written? : Option Document) (hfields : ∀ f ∈ Document.optional name written?, f ∈ fields)
    (hwritten : ∀ doc, written? = some doc → d.Restores doc a)
    (homitted : written? = none → name ∉ fields.map (·.1) ∧ a = fallback) :
    (optional name d fallback).Restores fields a := by
  cases written? with
  | none =>
    obtain ⟨hname, rfl⟩ := homitted rfl
    exact restores_optional_of_notMem a hname
  | some doc => exact restores_optional (hfields _ (List.mem_singleton_self _)) (hwritten doc rfl)

/-- A field that is left out when it has no value. -/
theorem restores_unlessMissing {name : String} {d : Decoder α} {write : α → Document}
    {a? : Option α} (hfields : ∀ f ∈ Document.optional name (a?.map write), f ∈ fields)
    (homitted : a? = none → name ∉ fields.map (·.1))
    (hd : ∀ a, a? = some a → d.Restores (write a) a ∧ write a ≠ .value .null) :
    (optional name (Decoder.option d) none).Restores fields a? := by
  refine restores_unlessNone _ hfields (fun doc hdoc => ?_) fun hnone => ?_
  · obtain ⟨a, rfl, rfl⟩ := Option.map_eq_some_iff.mp hdoc
    exact (hd a rfl).1.option (hd a rfl).2
  · rw [Option.map_eq_none_iff] at hnone
    exact ⟨homitted hnone, hnone⟩

/-- A string that is left out when it is missing. -/
theorem restores_stringUnlessMissing {name : String} {text? : Option String}
    (hfields : ∀ f ∈ Document.optional name (text?.map .str), f ∈ fields)
    (homitted : text? = none → name ∉ fields.map (·.1)) :
    (optional name (Decoder.option Decoder.string) none).Restores fields text? :=
  restores_unlessMissing hfields homitted fun text _ => ⟨Decoder.restores_string text, nofun⟩

end Fields

/-- **The fields of a record are taken from members that show them.** They were written in
declared order, each under one of its spellings. -/
theorem Decoder.fromObject_eq_ok {f : Fields α} {fields : List (String × Document)} {a : α}
    (hnames : (fields.map (·.1)).Sublist f.spellings.flatten)
    (hnodup : f.spellings.flatten.Nodup) (hf : f.Restores fields a) (dialect : Dialect)
    {members : List (MemberName × Source × Mark)} (hmembers : ShowsFields members fields)
    (close : Mark) : Decoder.fromObject f dialect members (.ok close) = .ok a := by
  have hvisit := hf (hnodup.sublist hnames) dialect members hmembers
  -- Every member belongs to a field.
  have hstrays : Decoder.strays f.spellings.flatten dialect members = [] := by
    rw [Decoder.strays, List.filterMap_eq_nil_iff]
    rintro ⟨m, i⟩ hm
    exact if_pos (hnames.subset (hmembers.mem_names (List.fst_mem_of_mem_zipIdx hm)))
  simp only [Decoder.fromObject, hvisit, hstrays, List.append_nil, Fields.earliest]

/-- **A record is restored when its fields are.** -/
theorem Decoder.restores_record {name : String} {f : Fields α} {fields : List (String × Document)}
    {a : α} (hnames : (fields.map (·.1)).Sublist f.spellings.flatten)
    (hnodup : f.spellings.flatten.Nodup) (hf : f.Restores fields a) :
    (Decoder.record name f).Restores (.record fields) a := by
  intro dialect s hs
  obtain ⟨start, members, close, rfl, hmembers⟩ := hs.exists_eq_record (hnodup.sublist hnames)
  exact fromObject_eq_ok hnames hnodup hf dialect hmembers close

/-- **A record that lacks a field that must be there is refused.** -/
theorem Decoder.exists_record_required_eq_error (typeName : String) {name : String}
    (d : Decoder α) {fields : List (String × Document)} (hnodup : (fields.map (·.1)).Nodup)
    (hname : name ∉ fields.map (·.1)) (dialect : Dialect) {s : Source}
    (hs : s.Shows (.record fields)) :
    ∃ e, Decoder.record typeName (Fields.required name d) dialect s = .error e := by
  obtain ⟨start, members, close, rfl, hmembers⟩ := hs.exists_eq_record hnodup
  have hmissing : (Fields.required name d).fromMembers dialect members = { missing := [name] } := by
    simp only [Fields.required, Fields.field, Fields.occurrences_eq_nil hname hmembers]
  simp only [Decoder.record, Source.bare, Decoder.fromObject, hmissing]
  split
  · exact ⟨_, rfl⟩
  · exact ⟨_, rfl⟩

end CallChain
