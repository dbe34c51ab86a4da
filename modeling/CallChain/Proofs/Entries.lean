import CallChain.Entries
import Mathlib.Data.List.Basic
import Mathlib.Data.List.Forall2
import Mathlib.Data.String.Basic

/-!
# Which names a table has

A name is in a table or it is not; here this is followed through the operations on tables. Setting
a name adds that name and no other (`CallChain.Entries.has_insert_iff`); what a sequence of such
steps adds is what one of them adds (`CallChain.Entries.has_foldl_iff`).

Setting a name twice is setting it once (`CallChain.Entries.insert_insert`), and different names may
be set in either order (`CallChain.Entries.insert_comm`). In a table that is in
order, setting a name to the value it has changes nothing (`CallChain.Entries.insert_eq_self`), and
the order is kept (`CallChain.Entries.ordered_insert`). What is made of pairs is in order
(`CallChain.Entries.ordered_ofPairs`), and a table in order is made of its own pairs
(`CallChain.Entries.ofPairs_eq_self`). Pairs with different names all stay
(`CallChain.Entries.perm_ofPairs`).
-/

set_option autoImplicit false

namespace CallChain

/-- Everything in the first of two related lists is related to something in the second. -/
theorem exists_mem_of_forall₂ {α β : Type} {R : α → β → Prop} {as : List α} {bs : List β}
    (h : List.Forall₂ R as bs) {a : α} (ha : a ∈ as) : ∃ b ∈ bs, R a b := by
  induction h with
  | nil => cases ha
  | @cons _ b _ _ hab _ ih =>
    rcases List.mem_cons.mp ha with rfl | hlater
    · exact ⟨b, List.mem_cons_self, hab⟩
    · obtain ⟨b', hb', hr⟩ := ih hlater
      exact ⟨b', List.mem_cons_of_mem _ hb', hr⟩

namespace Entries

variable {α β : Type}

theorem has_iff_mem_names {entries : Entries α} {name : String} :
    has entries name = true ↔ name ∈ entries.names := by
  rw [has]
  induction entries with
  | nil => simp [get?, names]
  | cons m rest ih =>
    obtain ⟨k, v⟩ := m
    by_cases hk : k = name
    · simp [get?, names, hk]
    · rw [get?, if_neg hk, ih]
      simp [names, Ne.symm hk]

/-- **Setting a name adds that name and no other.** -/
theorem has_insert_iff {entries : Entries α} {name other : String} {value : α} :
    has (insert name value entries) other = true ↔ other = name ∨ has entries other = true := by
  rw [has, has]
  by_cases h : other = name
  · rw [h, get?_insert_self]
    simp
  · rw [get?_insert_of_ne h]
    simp [h]

/-- **A sequence of steps each of which may add a name** adds it when one of them does. -/
theorem has_foldl_iff {f : Entries α → β → Entries α} {P : β → Prop} {other : String}
    (hf : ∀ entries b, has (f entries b) other = true ↔ P b ∨ has entries other = true)
    (l : List β) (entries : Entries α) :
    has (l.foldl f entries) other = true ↔ (∃ b ∈ l, P b) ∨ has entries other = true := by
  induction l generalizing entries with
  | nil => simp
  | cons b rest ih =>
    rw [List.foldl_cons, ih, hf, List.exists_mem_cons_iff, ← or_assoc, or_comm (b := P b)]

/-- Setting several names adds them and no others, in whatever order they come. -/
theorem has_foldl_insert_iff {name : β → String} {value : β → α} {other : String} (l : List β)
    (entries : Entries α) :
    has (l.foldl (fun entries b => insert (name b) (value b) entries) entries) other = true ↔
      (∃ b ∈ l, name b = other) ∨ has entries other = true :=
  has_foldl_iff (fun entries b => by rw [has_insert_iff, eq_comm]) l entries

/-! ### The order of the names -/

/-- **A table in order**: names strictly increasing. -/
def Ordered (entries : Entries α) : Prop := (entries.map (·.1)).Pairwise (· < ·)

theorem ordered_cons_iff {m : String × α} {rest : Entries α} :
    Ordered (m :: rest) ↔ (∀ name ∈ names rest, m.1 < name) ∧ Ordered rest :=
  List.pairwise_cons

theorem mem_of_get?_eq_some {entries : Entries α} {name : String} {value : α}
    (h : get? entries name = some value) : (name, value) ∈ entries := by
  induction entries with
  | nil => cases h
  | cons m rest ih =>
    obtain ⟨k, v⟩ := m
    rw [get?] at h
    split at h
    · rename_i hk
      cases h
      exact hk ▸ List.mem_cons_self
    · exact List.mem_cons_of_mem _ (ih h)

/-- **In a table in order every pair is found** under its name. -/
theorem get?_eq_some_of_mem {entries : Entries α} (hordered : Ordered entries) {m : String × α}
    (h : m ∈ entries) : get? entries m.1 = some m.2 := by
  induction entries with
  | nil => cases h
  | cons first rest ih =>
    obtain ⟨hlt, hrest⟩ := ordered_cons_iff.mp hordered
    rcases List.mem_cons.mp h with rfl | hlater
    · rw [get?, if_pos rfl]
    · rw [get?, if_neg (ne_of_lt (hlt m.1 (List.mem_map_of_mem hlater))), ih hrest hlater]

/-- A property of all pairs of a table in order is a property of what is found under the names. -/
theorem forall_mem_iff_forall_get? {entries : Entries α} (hordered : Ordered entries)
    {P : String → α → Prop} :
    (∀ m ∈ entries, P m.1 m.2) ↔ ∀ name value, get? entries name = some value → P name value :=
  ⟨fun h _ _ hvalue => h _ (mem_of_get?_eq_some hvalue),
    fun h m hm => h m.1 m.2 (get?_eq_some_of_mem hordered hm)⟩

theorem eq_or_mem_of_mem_insert {entries : Entries α} {name : String} {value : α}
    {m : String × α} (h : m ∈ insert name value entries) : m = (name, value) ∨ m ∈ entries := by
  induction entries with
  | nil => exact Or.inl (List.mem_singleton.mp h)
  | cons m' rest ih =>
    obtain ⟨k, v⟩ := m'
    rw [insert] at h
    split at h
    · exact (List.mem_cons.mp h).imp_right (List.mem_cons_of_mem _)
    · split at h
      · exact List.mem_cons.mp h
      · rcases List.mem_cons.mp h with rfl | hlater
        · exact Or.inr List.mem_cons_self
        · exact (ih hlater).imp_right (List.mem_cons_of_mem _)

/-- The second of two values for a name counts. -/
theorem insert_insert (name : String) (value value' : α) (entries : Entries α) :
    insert name value' (insert name value entries) = insert name value' entries := by
  induction entries with
  | nil => simp [insert]
  | cons m rest ih =>
    obtain ⟨k, v⟩ := m
    by_cases hk : k = name
    · simp [insert, hk]
    · by_cases hlt : name < k
      · simp [insert, hk, hlt]
      · simp [insert, hk, hlt, ih]

/-- **Different names may be set in either order.** -/
theorem insert_comm {name other : String} (h : name ≠ other) (value value' : α)
    (entries : Entries α) :
    insert name value (insert other value' entries) =
      insert other value' (insert name value entries) := by
  wlog hlt : name < other generalizing name other value value'
  · exact (this (Ne.symm h) value' value (lt_of_le_of_ne (not_lt.mp hlt) (Ne.symm h))).symm
  have hnlt : ¬other < name := lt_asymm hlt
  induction entries with
  | nil => simp [insert, h, Ne.symm h, hlt, hnlt]
  | cons m rest ih =>
    obtain ⟨k, v⟩ := m
    by_cases hbefore : other < k
    · -- Both names belong before the first one.
      have hname : name < k := hlt.trans hbefore
      simp [insert, h, Ne.symm h, hlt, hnlt, hbefore, hname, ne_of_gt hbefore, ne_of_gt hname]
    · by_cases hk : k = other
      · subst hk
        simp [insert, h, Ne.symm h, hlt, hnlt]
      · by_cases hkname : k = name
        · subst hkname
          simp [insert, hnlt, hk]
        · by_cases hname : name < k
          · simp [insert, hk, hkname, hname, hbefore, h, hnlt]
          · simp [insert, hk, hkname, hname, hbefore, ih]

/-- **To set a name to the value that it has changes nothing** in a table in order. -/
theorem insert_eq_self {entries : Entries α} (hordered : Ordered entries) {name : String}
    {value : α} (h : get? entries name = some value) : insert name value entries = entries := by
  induction entries with
  | nil => cases h
  | cons m rest ih =>
    obtain ⟨k, v⟩ := m
    obtain ⟨hlt, hrest⟩ := ordered_cons_iff.mp hordered
    by_cases hk : k = name
    · rw [get?, if_pos hk, Option.some_inj] at h
      rw [insert, if_pos hk, hk, h]
    · rw [get?, if_neg hk] at h
      -- The name is further on, so its place is not here.
      have hbefore : ¬name < k := lt_asymm
        (hlt name (List.mem_map_of_mem (f := (·.1)) (mem_of_get?_eq_some h)))
      rw [insert, if_neg hk, if_neg hbefore, ih hrest h]

theorem mem_names_insert_iff {entries : Entries α} {name other : String} {value : α} :
    other ∈ names (insert name value entries) ↔ other = name ∨ other ∈ names entries := by
  rw [← has_iff_mem_names, ← has_iff_mem_names, has_insert_iff]

/-- **Setting a name keeps the order.** -/
theorem ordered_insert {entries : Entries α} (hordered : Ordered entries) (name : String)
    (value : α) : Ordered (insert name value entries) := by
  induction entries with
  | nil => exact List.pairwise_singleton _ _
  | cons m rest ih =>
    obtain ⟨k, v⟩ := m
    obtain ⟨hlt, hrest⟩ := ordered_cons_iff.mp hordered
    by_cases hk : k = name
    · rw [insert, if_pos hk, ← hk]
      exact hordered
    · by_cases hbefore : name < k
      · rw [insert, if_neg hk, if_pos hbefore]
        refine ordered_cons_iff.mpr ⟨fun other hother => ?_, hordered⟩
        rcases List.mem_cons.mp hother with rfl | hlater
        · exact hbefore
        · exact hbefore.trans (hlt other hlater)
      · have hafter : k < name := lt_of_le_of_ne (not_lt.mp hbefore) hk
        rw [insert, if_neg hk, if_neg hbefore]
        refine ordered_cons_iff.mpr ⟨fun other hother => ?_, ih hrest⟩
        rcases mem_names_insert_iff.mp hother with rfl | hlater
        · exact hafter
        · exact hlt other hlater

/-- A name behind all others is set at the end. -/
theorem insert_eq_append {entries : Entries α} {name : String} (value : α)
    (h : ∀ k ∈ names entries, k < name) :
    insert name value entries = entries ++ [(name, value)] := by
  induction entries with
  | nil => rfl
  | cons m rest ih =>
    obtain ⟨k, v⟩ := m
    have hk : k < name := h k List.mem_cons_self
    rw [insert, if_neg (ne_of_lt hk), if_neg (lt_asymm hk), List.cons_append,
      ih (fun k' hk' => h k' (List.mem_cons_of_mem _ hk'))]

/-- What has been set so far stands before what is still to come. -/
theorem foldl_insert_eq_append (before after : Entries α) (h : Ordered (before ++ after)) :
    after.foldl (fun entries p => insert p.1 p.2 entries) before = before ++ after := by
  induction after generalizing before with
  | nil => simp
  | cons m rest ih =>
    have hlt : ∀ k ∈ names before, k < m.1 := by
      intro k hk
      rw [Ordered, List.map_append, List.pairwise_append] at h
      exact h.2.2 k hk m.1 List.mem_cons_self
    have happend : before ++ [m] ++ rest = before ++ m :: rest := by simp
    rw [List.foldl_cons, insert_eq_append m.2 hlt, ih (before ++ [m]) (happend ▸ h), happend]

/-- **A table in order is made of its own pairs.** -/
theorem ofPairs_eq_self {entries : Entries α} (hordered : Ordered entries) :
    ofPairs entries = entries :=
  foldl_insert_eq_append [] entries hordered

/-- **What is made of pairs is in order.** -/
theorem ordered_ofPairs (pairs : List (String × α)) : Ordered (ofPairs pairs) :=
  List.foldlRecOn pairs _ List.Pairwise.nil fun _ hentries p _ => ordered_insert hentries p.1 p.2

theorem get?_insert (name other : String) (value : α) (entries : Entries α) :
    get? (insert name value entries) other =
      if name = other then some value else get? entries other := by
  split
  · rename_i h
    rw [← h, get?_insert_self]
  · rename_i h
    exact get?_insert_of_ne (Ne.symm h) value entries

/-- The last of several values that are set for a name counts, before what was there. -/
theorem get?_foldl_insert (pairs : List (String × α)) (entries : Entries α) (name : String) :
    get? (pairs.foldl (fun entries p => insert p.1 p.2 entries) entries) name =
      ((pairs.reverse.find? (·.1 == name)).map (·.2)).or (get? entries name) := by
  induction pairs generalizing entries with
  | nil => rfl
  | cons m rest ih =>
    rw [List.foldl_cons, ih, get?_insert, List.reverse_cons, List.find?_append,
      List.find?_singleton, Option.map_or, Option.or_assoc]
    by_cases hm : m.1 = name
    · simp [hm]
    · simp [hm]

/-- **Of several pairs with one name the last counts.** -/
theorem get?_ofPairs (pairs : List (String × α)) (name : String) :
    get? (ofPairs pairs) name = (pairs.reverse.find? (·.1 == name)).map (·.2) := by
  rw [ofPairs, get?_foldl_insert, get?, Option.or_none]

/-- What is made of pairs has no others. -/
theorem mem_of_mem_ofPairs {pairs : List (String × α)} {m : String × α}
    (h : m ∈ ofPairs pairs) : m ∈ pairs := by
  revert h
  refine List.foldlRecOn pairs (motive := fun entries => m ∈ entries → m ∈ pairs) _ nofun ?_
  intro entries ih p hp h
  rcases eq_or_mem_of_mem_insert h with rfl | h
  · exact hp
  · exact ih h

/-! ### Some of the names -/

theorem get?_filter (p : String → Bool) (entries : Entries α) (name : String) :
    get? (entries.filter fun m => p m.1) name = if p name then get? entries name else none := by
  induction entries with
  | nil => simp [get?]
  | cons m rest ih =>
    obtain ⟨k, v⟩ := m
    by_cases hk : k = name
    · subst hk
      by_cases hp : p k <;> simp [get?, hp, ih]
    · by_cases hp : p k <;> simp [get?, hk, hp, ih]

theorem ordered_filter {entries : Entries α} (hordered : Ordered entries)
    (p : String × α → Bool) : Ordered (entries.filter p) :=
  hordered.sublist (List.filter_sublist.map _)

/-! ### Pairs with different names -/

theorem perm_insert_of_notMem {entries : Entries α} {name : String} (value : α)
    (h : name ∉ names entries) : (insert name value entries).Perm ((name, value) :: entries) := by
  induction entries with
  | nil => rfl
  | cons m rest ih =>
    obtain ⟨k, v⟩ := m
    obtain ⟨hk, hrest⟩ := List.ne_and_not_mem_of_not_mem_cons h
    rw [insert, if_neg (Ne.symm hk)]
    split
    · rfl
    · exact ((ih hrest).cons (k, v)).trans (List.Perm.swap _ _ rest)

/-- Pairs with different names that are not there yet are added as they are. -/
theorem perm_foldl_insert (pairs entries : Entries α) (h : (names (pairs ++ entries)).Nodup) :
    (pairs.foldl (fun entries p => insert p.1 p.2 entries) entries).Perm (pairs ++ entries) := by
  induction pairs generalizing entries with
  | nil => rfl
  | cons m rest ih =>
    have hadded : (insert m.1 m.2 entries).Perm (m :: entries) := by
      refine perm_insert_of_notMem m.2 fun hm => ?_
      rw [names, List.cons_append, List.map_cons, List.nodup_cons, List.map_append] at h
      exact h.1 (List.mem_append_right _ hm)
    have hperm : (rest ++ insert m.1 m.2 entries).Perm (m :: rest ++ entries) :=
      (hadded.append_left rest).trans List.perm_middle
    have hrest : (names (rest ++ insert m.1 m.2 entries)).Nodup :=
      (hperm.map Prod.fst).nodup_iff.mpr h
    rw [List.foldl_cons]
    exact (ih _ hrest).trans hperm

/-- **What is made of pairs with different names is these pairs**, in order. -/
theorem perm_ofPairs {pairs : List (String × α)} (h : (pairs.map (·.1)).Nodup) :
    (ofPairs pairs).Perm pairs := by
  have hperm := perm_foldl_insert pairs [] (by rwa [List.append_nil])
  rwa [List.append_nil] at hperm

/-! ### Changing the values -/

theorem ordered_map_iff {entries : Entries α} (g : α → β) :
    Ordered (entries.map fun p => (p.1, g p.2)) ↔ Ordered entries := by
  rw [Ordered, Ordered, List.map_map, Function.comp_def]

theorem map_insert (g : α → β) (name : String) (value : α) (entries : Entries α) :
    (insert name value entries).map (fun p => (p.1, g p.2)) =
      insert name (g value) (entries.map fun p => (p.1, g p.2)) := by
  induction entries with
  | nil => rfl
  | cons m rest ih =>
    obtain ⟨k, v⟩ := m
    rw [List.map_cons, insert, insert, apply_ite (List.map _), apply_ite (List.map _),
      List.map_cons, List.map_cons, List.map_cons, List.map_cons, ih]

/-- **Values may be changed before or after** a table is made of pairs. -/
theorem map_ofPairs (g : α → β) (pairs : List (String × α)) :
    (ofPairs pairs).map (fun p => (p.1, g p.2)) = ofPairs (pairs.map fun p => (p.1, g p.2)) := by
  have hstep : ∀ (entries : Entries α) (p : String × α),
      insert p.1 (g p.2) (entries.map fun p => (p.1, g p.2)) =
        (insert p.1 p.2 entries).map fun p => (p.1, g p.2) :=
    fun entries p => (map_insert g p.1 p.2 entries).symm
  rw [ofPairs, ofPairs, List.foldl_map]
  exact (List.foldl_hom (List.map fun p : String × α => (p.1, g p.2)) hstep).symm

end Entries

end CallChain
