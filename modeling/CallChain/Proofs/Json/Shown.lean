import CallChain.Json.Document
import CallChain.Proofs.Json.Shape

/-!
# Sources that show a document

A document denotes two values: one with the fields of its records in declared order, which is how
it is written as a text, and one with sorted members, which is how it is handed on as a value. A
source shows a document when it holds one of the two (`CallChain.Source.Shows`).

A decoder takes a source apart and never asks which of the two it was: the items of a list show the
items of the document (`CallChain.Source.Shows.exists_eq_list`), and the members of a record with
different names show its fields in some order (`CallChain.Source.ShowsFields`,
`CallChain.Source.Shows.exists_eq_record`).
-/

set_option autoImplicit false

namespace CallChain

/-! ### Both values part by part -/

namespace Document

theorem inOrder_list (docs : List Document) : (list docs).inOrder = .arr (docs.map inOrder) := by
  rw [inOrder]
  congr 1
  induction docs with
  | nil => rfl
  | cons d more ih => rw [inOrderItems, List.map_cons, ih]

theorem toJson_list (docs : List Document) : (list docs).toJson = .arr (docs.map toJson) := by
  rw [toJson]
  congr 1
  induction docs with
  | nil => rfl
  | cons d more ih => rw [toJsonItems, List.map_cons, ih]

theorem inOrder_record (fields : List (String × Document)) :
    (record fields).inOrder = .obj (fields.map fun f => (f.1, f.2.inOrder)) := by
  rw [inOrder]
  congr 1
  induction fields with
  | nil => rfl
  | cons f more ih => rw [inOrderFields, List.map_cons, ih]

theorem toJsonFields_eq_map (fields : List (String × Document)) :
    toJsonFields fields = fields.map fun f => (f.1, f.2.toJson) := by
  induction fields with
  | nil => rfl
  | cons f more ih => rw [toJsonFields, List.map_cons, ih]

/-- The value of a record is made of the values of its sorted fields. -/
theorem toJson_record (fields : List (String × Document)) :
    (record fields).toJson = .obj ((Entries.ofPairs fields).map fun f => (f.1, f.2.toJson)) := by
  rw [toJson, Json.ofPairs, toJsonFields_eq_map, Entries.map_ofPairs]

end Document

namespace Source

/-! ### What is held, item by item -/

theorem HoldsItems.forall₂ {items : List (Source × Mark)} {js : List Json}
    (h : HoldsItems items js) : List.Forall₂ (fun item j => item.1.Holds j) items js := by
  induction js generalizing items with
  | nil =>
    cases h
    exact .nil
  | cons j more ih =>
    cases h with
    | cons settled hs hmore => exact .cons hs (ih hmore)

theorem HoldsMembers.forall₂ {members : List (MemberName × Source × Mark)}
    {js : List (String × Json)} (h : HoldsMembers members js) :
    List.Forall₂ (fun m j => m.1.text = j.1 ∧ m.2.1.Holds j.2) members js := by
  induction js generalizing members with
  | nil =>
    cases h
    exact .nil
  | cons j more ih =>
    cases h with
    | cons k settled hs hmore => exact .cons ⟨rfl, hs⟩ (ih hmore)

/-! ### Showing a document -/

/-- **A source shows a document**: it holds the value of the document, with the fields of records
in declared order or sorted. -/
def Shows (s : Source) (doc : Document) : Prop := s.Holds doc.inOrder ∨ s.Holds doc.toJson

/-- Members show fields of the same names, one by one. -/
def ShowsMembers (members : List (MemberName × Source × Mark))
    (fields : List (String × Document)) : Prop :=
  List.Forall₂ (fun m f => m.1.text = f.1 ∧ m.2.1.Shows f.2) members fields

/-- **Members show fields** of the same names, in some order. -/
def ShowsFields (members : List (MemberName × Source × Mark))
    (fields : List (String × Document)) : Prop :=
  ∃ fields', fields'.Perm fields ∧ ShowsMembers members fields'

variable {s : Source} {members : List (MemberName × Source × Mark)}
  {fields : List (String × Document)}

theorem shows_ofJson_toJson (doc : Document) : (ofJson doc.toJson).Shows doc :=
  Or.inr (holds_ofJson _)

/-- A value has no fields that could be out of order. -/
theorem Shows.holds {j : Json} (h : s.Shows (.value j)) : s.Holds j := h.elim id id

/-- Null stands for null only. -/
theorem Shows.eq_null {doc : Document} {span : Span} (h : (scalar .null span).Shows doc) :
    doc = .value .null := by
  cases doc with
  | value j =>
    cases h.holds
    rfl
  | list docs => rcases h with h | h <;> cases h
  | record fields => rcases h with h | h <;> cases h

theorem not_shows_plain {doc : Document} {text : String} : ¬(plain text).Shows doc := by
  rintro (h | h) <;> cases h

theorem not_shows_tagged {doc : Document} {tag : NodeTag} : ¬(tagged tag s).Shows doc := by
  rintro (h | h) <;> cases h

section Parts

-- Either of the two ways in which a document denotes a value.
variable {g : Document → Json} (hg : ∀ {s : Source} {doc : Document}, s.Holds (g doc) → s.Shows doc)

include hg

theorem Holds.exists_shown_items {docs : List Document} (h : s.Holds (.arr (docs.map g))) :
    ∃ start items close, s = .list start items (.ok close) ∧
      List.Forall₂ (fun item doc => item.1.Shows doc) items docs := by
  obtain ⟨start, items, close, rfl, hitems⟩ := h.exists_eq_list
  refine ⟨start, items, close, rfl, ?_⟩
  exact (List.forall₂_map_right_iff.mp hitems.forall₂).imp fun _ _ => hg

theorem Holds.exists_shown_members (h : s.Holds (.obj (fields.map fun f => (f.1, g f.2)))) :
    ∃ start members close, s = .record start members (.ok close) ∧
      ShowsMembers members fields := by
  obtain ⟨start, members, close, rfl, hmembers⟩ := h.exists_eq_record
  refine ⟨start, members, close, rfl, ?_⟩
  exact (List.forall₂_map_right_iff.mp hmembers.forall₂).imp fun _ _ => And.imp_right hg

end Parts

/-- **The items of a list show the items of the document.** -/
theorem Shows.exists_eq_list {docs : List Document} (h : s.Shows (.list docs)) :
    ∃ start items close, s = .list start items (.ok close) ∧
      List.Forall₂ (fun item doc => item.1.Shows doc) items docs := by
  rcases h with h | h
  · rw [Document.inOrder_list] at h
    exact h.exists_shown_items Or.inl
  · rw [Document.toJson_list] at h
    exact h.exists_shown_items Or.inr

/-- **The members of a record with different names show its fields**, in some order. -/
theorem Shows.exists_eq_record (h : s.Shows (.record fields)) (hnodup : (fields.map (·.1)).Nodup) :
    ∃ start members close, s = .record start members (.ok close) ∧ ShowsFields members fields := by
  rcases h with h | h
  · rw [Document.inOrder_record] at h
    obtain ⟨start, members, close, rfl, hmembers⟩ := h.exists_shown_members Or.inl
    exact ⟨start, members, close, rfl, fields, .refl _, hmembers⟩
  · rw [Document.toJson_record] at h
    obtain ⟨start, members, close, rfl, hmembers⟩ := h.exists_shown_members Or.inr
    exact ⟨start, members, close, rfl, _, Entries.perm_ofPairs hnodup, hmembers⟩

/-- The members of a record with sorted names show its fields in this order. -/
theorem Shows.exists_eq_record_of_ordered (h : s.Shows (.record fields))
    (hordered : Entries.Ordered fields) :
    ∃ start members close, s = .record start members (.ok close) ∧
      ShowsMembers members fields := by
  rcases h with h | h
  · rw [Document.inOrder_record] at h
    exact h.exists_shown_members Or.inl
  · rw [Document.toJson_record, Entries.ofPairs_eq_self hordered] at h
    exact h.exists_shown_members Or.inr

/-! ### Members by name -/

theorem ShowsMembers.map_text_eq (h : ShowsMembers members fields) :
    members.map (·.1.text) = fields.map (·.1) := by
  induction h with
  | nil => rfl
  | cons hm _ ih => rw [List.map_cons, List.map_cons, hm.1, ih]

/-- Members have the names of the fields that they show. -/
theorem ShowsFields.perm_names (h : ShowsFields members fields) :
    (members.map (·.1.text)).Perm (fields.map (·.1)) := by
  obtain ⟨fields', hperm, hmembers⟩ := h
  rw [hmembers.map_text_eq]
  exact hperm.map Prod.fst

/-- Each member shows a field of its name. -/
theorem ShowsFields.exists_field (h : ShowsFields members fields)
    {m : MemberName × Source × Mark} (hm : m ∈ members) :
    ∃ doc, (m.1.text, doc) ∈ fields ∧ m.2.1.Shows doc := by
  obtain ⟨fields', hperm, hmembers⟩ := h
  obtain ⟨⟨name, doc⟩, hf, hname, hshows⟩ := exists_mem_of_forall₂ hmembers hm
  exact ⟨doc, hperm.subset (hname ▸ hf), hshows⟩

theorem ShowsFields.mem_names (h : ShowsFields members fields)
    {m : MemberName × Source × Mark} (hm : m ∈ members) : m.1.text ∈ fields.map (·.1) :=
  h.perm_names.subset (List.mem_map_of_mem (f := (·.1.text)) hm)

theorem ShowsFields.exists_eq_singleton {name : String} {doc : Document}
    (h : ShowsFields members [(name, doc)]) :
    ∃ k settled s, members = [(k, s, settled)] ∧ k.text = name ∧ s.Shows doc := by
  obtain ⟨fields', hperm, hmembers⟩ := h
  rw [List.perm_singleton.mp hperm, ShowsMembers, List.forall₂_cons_right_iff] at hmembers
  obtain ⟨⟨k, s, settled⟩, rest, ⟨hname, hs⟩, hrest, rfl⟩ := hmembers
  rw [List.forall₂_nil_right_iff.mp hrest]
  exact ⟨k, settled, s, rfl, hname, hs⟩

/-- **Each field is shown by a member** of its name. -/
theorem ShowsFields.exists_of_mem (h : ShowsFields members fields) {name : String}
    {doc : Document} (hdoc : (name, doc) ∈ fields) :
    ∃ m ∈ members, m.1.text = name ∧ m.2.1.Shows doc := by
  obtain ⟨fields', hperm, hmembers⟩ := h
  have hflipped : List.Forall₂ (fun f m => m.1.text = f.1 ∧ m.2.1.Shows f.2) fields' members :=
    .flip hmembers
  exact exists_mem_of_forall₂ hflipped (hperm.symm.subset hdoc)

/-- Members of some names show the fields of these names. -/
theorem ShowsFields.filter (h : ShowsFields members fields) (p : String → Bool) :
    ShowsFields (members.filter fun m => p m.1.text) (fields.filter fun f => p f.1) := by
  obtain ⟨fields', hperm, hmembers⟩ := h
  refine ⟨fields'.filter fun f => p f.1, hperm.filter _, ?_⟩
  clear hperm
  induction hmembers with
  | nil => exact .nil
  | @cons m f _ _ hm _ ih =>
    rw [List.filter_cons, List.filter_cons, hm.1]
    split
    · exact .cons hm ih
    · exact ih

end Source

end CallChain
