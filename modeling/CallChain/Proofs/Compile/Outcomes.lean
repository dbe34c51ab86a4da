import CallChain.Proofs.Compile.Lookups

/-!
# What comes of looking definitions up

What has been joined is taken in the order in which it was, and the first failure decides. So there
are two kinds of outcomes.

* If no look-up fails, there is one outcome: the table of all definitions that were found
  (`CallChain.Brings`), which is the same table for every order (`CallChain.fetch_eq_ok_iff`).
* If some look-ups fail, each of their errors is an outcome, since each of them may come first
  (`CallChain.fetch_eq_error_iff`).

The outcome is the same for all orders if and only if all look-ups that fail do so with the same
error (`CallChain.Graph.fetches_iff`); with two different errors it is not
(`CallChain.Graph.fetch_depends_on_order`).
-/

set_option autoImplicit false

namespace CallChain

/-- **Tables in order are determined by what is looked up in them.** -/
theorem Entries.eq_of_get?_eq {α : Type} {entries entries' : Entries α} (h : Ordered entries)
    (h' : Ordered entries') (hget : ∀ name, get? entries name = get? entries' name) :
    entries = entries' := by
  -- A pair stands in a table in order exactly when it is found there.
  have hmem : ∀ m, m ∈ entries ↔ m ∈ entries' := by
    intro m
    constructor
    · exact fun hm => mem_of_get?_eq_some (hget m.1 ▸ get?_eq_some_of_mem h hm)
    · exact fun hm => mem_of_get?_eq_some ((hget m.1).symm ▸ get?_eq_some_of_mem h' hm)
  have hnodup : ∀ {l : Entries α}, Ordered l → l.Nodup := fun hl =>
    List.Nodup.of_map (fun m : String × α => m.1) (hl.imp ne_of_lt)
  have hperm : entries.Perm entries' :=
    (List.perm_ext_iff_of_nodup (hnodup h) (hnodup h')).mpr hmem
  exact hperm.eq_of_pairwise (fun a b _ _ hab hba => absurd hab (lt_asymm hba))
    (List.pairwise_map.mp h) (List.pairwise_map.mp h')

variable {lookup : Lookup} {ids completed : List String} {definitions : Entries ApiDefinition}
  {e : CatalogError}

/-! ### One order -/

/-- **All definitions that the look-ups of ids bring**, in a table: an id has the definition that
was found for it; what is not known is not in the table. -/
structure Brings (lookup : Lookup) (ids : List String) (definitions : Entries ApiDefinition) :
    Prop where
  ordered : Entries.Ordered definitions
  get?_eq_some_iff : ∀ id api, Entries.get? definitions id = some api ↔
    id ∈ ids ∧ lookup id = .ok (some api)

namespace Brings

/-- There is only one such table. -/
theorem unique {definitions' : Entries ApiDefinition} (h : Brings lookup ids definitions)
    (h' : Brings lookup ids definitions') : definitions = definitions' := by
  refine Entries.eq_of_get?_eq h.ordered h'.ordered fun id => Option.ext fun api => ?_
  rw [h.get?_eq_some_iff, h'.get?_eq_some_iff]

/-- The order of the ids makes no difference. -/
theorem of_perm (h : Brings lookup ids definitions) (hperm : completed.Perm ids) :
    Brings lookup completed definitions :=
  ⟨h.ordered, fun id api => by rw [h.get?_eq_some_iff, hperm.mem_iff]⟩

end Brings

/-! ### One look-up after another -/

theorem fetch_cons_of_error {id : String} {rest : List String} (h : lookup id = .error e) :
    fetch lookup (id :: rest) = .error e := by
  rw [fetch, h]

theorem fetch_cons_of_ok {id : String} {rest : List String} {found? : Option ApiDefinition}
    (h : lookup id = .ok found?) :
    fetch lookup (id :: rest) = (fetch lookup rest).map fun definitions =>
      found?.elim definitions (Entries.insert id · definitions) := by
  simp only [fetch, h]
  cases fetch lookup rest <;> cases found? <;> rfl

/-- **The first failure decides.** -/
theorem fetch_eq_error_iff :
    fetch lookup completed = .error e ↔ ∃ before id after, completed = before ++ id :: after ∧
      (∀ a ∈ before, ∃ found?, lookup a = .ok found?) ∧ lookup id = .error e := by
  induction completed with
  | nil => simp [fetch]
  | cons first rest ih =>
    cases hfirst : lookup first with
    | error e' =>
      rw [fetch_cons_of_error hfirst]
      constructor
      · rintro ⟨⟩
        exact ⟨[], first, rest, rfl, List.forall_mem_nil _, hfirst⟩
      · rintro ⟨before, id, after, hsplit, hbefore, hid⟩
        -- What fails first has nothing before it.
        rcases before with _ | ⟨b, more⟩
        · cases hsplit
          exact congrArg Except.error (Except.error.inj (hfirst.symm.trans hid))
        · cases hsplit
          obtain ⟨found?, hfound⟩ := hbefore first List.mem_cons_self
          cases hfirst.symm.trans hfound
    | ok found? =>
      rw [fetch_cons_of_ok hfirst, except_map_eq_error_iff, ih]
      constructor
      · rintro ⟨before, id, after, rfl, hbefore, hid⟩
        exact ⟨first :: before, id, after, rfl,
          List.forall_mem_cons.mpr ⟨⟨found?, hfirst⟩, hbefore⟩, hid⟩
      · rintro ⟨before, id, after, hsplit, hbefore, hid⟩
        rcases before with _ | ⟨b, more⟩
        · cases hsplit
          cases hfirst.symm.trans hid
        · cases hsplit
          exact ⟨more, id, after, rfl, (List.forall_mem_cons.mp hbefore).2, hid⟩

/-- What is joined to a table in order keeps it in order, and every look-up has succeeded. -/
theorem found_of_fetch_eq_ok (h : fetch lookup completed = .ok definitions) :
    (∀ id ∈ completed, ∃ found?, lookup id = .ok found?) ∧ Entries.Ordered definitions := by
  induction completed generalizing definitions with
  | nil =>
    cases h
    exact ⟨List.forall_mem_nil _, .nil⟩
  | cons first rest ih =>
    cases hfirst : lookup first with
    | error e =>
      rw [fetch_cons_of_error hfirst] at h
      cases h
    | ok found? =>
      rw [fetch_cons_of_ok hfirst] at h
      obtain ⟨more, hmore, rfl⟩ := except_map_eq_ok_iff.mp h
      obtain ⟨hfound, hordered⟩ := ih hmore
      refine ⟨List.forall_mem_cons.mpr ⟨⟨found?, hfirst⟩, hfound⟩, ?_⟩
      cases found? with
      | none => exact hordered
      | some api => exact Entries.ordered_insert hordered first api

/-- **If no look-up fails, the definitions that were found are the outcome.** -/
theorem fetch_eq_ok_iff :
    fetch lookup completed = .ok definitions ↔
      (∀ id ∈ completed, ∃ found?, lookup id = .ok found?) ∧
        Brings lookup completed definitions := by
  have hbrings : (∀ id ∈ completed, ∃ found?, lookup id = .ok found?) →
      ∃ found, fetch lookup completed = .ok found ∧ Brings lookup completed found := by
    intro hok
    have hlookup : ∀ id ∈ completed, lookup id = .ok (lookup id).toOption.join := by
      intro id hid
      obtain ⟨found?, hfound⟩ := hok id hid
      rw [hfound]
      rfl
    obtain ⟨found, hfetch, hget⟩ := exists_fetch_eq_ok hlookup
    refine ⟨found, hfetch, (found_of_fetch_eq_ok hfetch).2, fun id api => ?_⟩
    rw [hget]
    split
    · rename_i hid
      obtain ⟨found?, hfound⟩ := hok id hid
      simp [hid, hfound, Except.toOption]
    · rename_i hid
      simp [hid]
  constructor
  · intro h
    obtain ⟨hok, -⟩ := found_of_fetch_eq_ok h
    obtain ⟨found, hfetch, hfound⟩ := hbrings hok
    obtain rfl := Except.ok.inj (hfetch.symm.trans h)
    exact ⟨hok, hfound⟩
  · rintro ⟨hok, hdefinitions⟩
    obtain ⟨found, hfetch, hfound⟩ := hbrings hok
    rw [hfetch, hfound.unique hdefinitions]

/-- What has been fetched in one order is fetched in every other. -/
theorem fetch_eq_ok_of_perm (h : fetch lookup completed = .ok definitions)
    (hperm : ids.Perm completed) : fetch lookup ids = .ok definitions := by
  obtain ⟨hok, hbrings⟩ := fetch_eq_ok_iff.mp h
  exact fetch_eq_ok_iff.mpr
    ⟨fun id hid => hok id (hperm.mem_iff.mp hid), hbrings.of_perm hperm⟩

/-! ### All orders -/

namespace Graph

/-- **What may come of looking up the ids of a graph**: some order in which the look-ups complete
leads to it. -/
def Fetches (g : Graph) (config : CompilerConfig) (lookup : Lookup)
    (outcome : Except CatalogError (Entries ApiDefinition)) : Prop :=
  ∃ completed, Lookups.Reaches config.permits (.start g.apiIds) (.done completed) ∧
    fetch lookup completed = outcome

variable {g : Graph} {config : CompilerConfig}

theorem fetches_iff_perm {outcome : Except CatalogError (Entries ApiDefinition)} :
    g.Fetches config lookup outcome ↔
      ∃ completed, completed.Perm g.apiIds ∧ fetch lookup completed = outcome := by
  simp only [Fetches, Lookups.reaches_done_iff_perm config.permits_pos]

/-- If no look-up fails, the table of what was found is the only outcome. -/
theorem fetches_ok_iff :
    g.Fetches config lookup (.ok definitions) ↔
      (∀ n ∈ g.nodes, ∃ found?, lookup n.api = .ok found?) ∧
        Brings lookup g.apiIds definitions := by
  have hnamed : (∀ id ∈ g.apiIds, ∃ found?, lookup id = .ok found?) ↔
      ∀ n ∈ g.nodes, ∃ found?, lookup n.api = .ok found? := by
    simp only [mem_apiIds_iff, forall_exists_index, and_imp, forall_apply_eq_imp_iff₂]
  rw [← hnamed, fetches_iff_perm]
  constructor
  · rintro ⟨completed, hperm, h⟩
    obtain ⟨hok, hbrings⟩ := fetch_eq_ok_iff.mp h
    exact ⟨fun id hid => hok id (hperm.mem_iff.mpr hid), hbrings.of_perm hperm.symm⟩
  · exact fun h => ⟨g.apiIds, .refl _, fetch_eq_ok_iff.mpr h⟩

/-- **The error of every look-up that fails is an outcome**, and there are no other errors. -/
theorem fetches_error_iff :
    g.Fetches config lookup (.error e) ↔ ∃ n ∈ g.nodes, lookup n.api = .error e := by
  rw [fetches_iff_perm]
  constructor
  · rintro ⟨completed, hperm, h⟩
    obtain ⟨before, id, after, rfl, -, hid⟩ := fetch_eq_error_iff.mp h
    obtain ⟨n, hn, rfl⟩ := mem_apiIds_iff.mp (hperm.subset (by simp : id ∈ before ++ id :: after))
    exact ⟨n, hn, hid⟩
  · rintro ⟨n, hn, h⟩
    -- The look-up that fails may be the first to complete.
    have hmem : n.api ∈ g.apiIds := mem_apiIds_iff.mpr ⟨n, hn, rfl⟩
    exact ⟨n.api :: g.apiIds.erase n.api, (List.perm_cons_erase hmem).symm,
      fetch_cons_of_error h⟩

/-- **What may come of looking up the ids of a graph**, however many may be looked up at a time.

* A table of definitions is an outcome if no look-up fails and it is the table of what was found.
* An error is an outcome if some look-up fails with it.
* All orders in which the look-ups may complete lead to the same outcome if and only if all look-ups
  that fail do so with the same error. -/
theorem fetches_iff (g : Graph) (config : CompilerConfig) (lookup : Lookup) :
    (∀ definitions, g.Fetches config lookup (.ok definitions) ↔
      (∀ n ∈ g.nodes, ∃ found?, lookup n.api = .ok found?) ∧
        Brings lookup g.apiIds definitions) ∧
    (∀ e, g.Fetches config lookup (.error e) ↔ ∃ n ∈ g.nodes, lookup n.api = .error e) ∧
    ((∀ completed completed', Lookups.Reaches config.permits (.start g.apiIds) (.done completed) →
        Lookups.Reaches config.permits (.start g.apiIds) (.done completed') →
        fetch lookup completed = fetch lookup completed') ↔
      ∀ n ∈ g.nodes, ∀ n' ∈ g.nodes, ∀ e e', lookup n.api = .error e → lookup n'.api = .error e' →
        e = e') := by
  refine ⟨fun definitions => fetches_ok_iff, fun e => fetches_error_iff, ?_, ?_⟩
  · intro hsame n hn n' hn' e e' he he'
    obtain ⟨completed, hdone, h⟩ := fetches_error_iff.mpr ⟨n, hn, he⟩
    obtain ⟨completed', hdone', h'⟩ := fetches_error_iff.mpr ⟨n', hn', he'⟩
    exact Except.error.inj (h.symm.trans ((hsame _ _ hdone hdone').trans h'))
  · intro hsame completed completed' hdone hdone'
    rcases h : fetch lookup completed with e | definitions
    · obtain ⟨n, hn, he⟩ := fetches_error_iff.mp ⟨completed, hdone, h⟩
      rcases h' : fetch lookup completed' with e' | definitions'
      · obtain ⟨n', hn', he'⟩ := fetches_error_iff.mp ⟨completed', hdone', h'⟩
        rw [hsame n hn n' hn' e e' he he']
      · obtain ⟨hok, -⟩ := fetches_ok_iff.mp ⟨completed', hdone', h'⟩
        obtain ⟨found?, hfound⟩ := hok n hn
        cases he.symm.trans hfound
    · obtain ⟨hok, hbrings⟩ := fetches_ok_iff.mp ⟨completed, hdone, h⟩
      rcases h' : fetch lookup completed' with e' | definitions'
      · obtain ⟨n', hn', he'⟩ := fetches_error_iff.mp ⟨completed', hdone', h'⟩
        obtain ⟨found?, hfound⟩ := hok n' hn'
        cases he'.symm.trans hfound
      · obtain ⟨-, hbrings'⟩ := fetches_ok_iff.mp ⟨completed', hdone', h'⟩
        rw [hbrings.unique hbrings']

/-! ### Two errors -/

/-- Four calls in a row, each of an operation of its own. -/
def row : Graph where
  id := "row"
  name := "Row"
  nodes := [⟨"a", "a", []⟩, ⟨"b", "b", []⟩, ⟨"c", "c", []⟩, ⟨"d", "d", []⟩]
  edges := [⟨"a", "b", []⟩, ⟨"b", "c", []⟩, ⟨"c", "d", []⟩]

/-- A catalog in which two look-ups fail, each with an error of its own. -/
def failsTwice : Lookup
  | "a" => .error (.lookupFailed "x")
  | "d" => .error (.lookupFailed "y")
  | _ => .ok none

/-- **With two errors the order of completion decides**: whichever of the two look-ups is joined
first, its error is the outcome. -/
theorem fetch_depends_on_order :
    Lookups.Reaches (CompilerConfig.permits {}) (.start row.apiIds) (.done ["a", "b", "c", "d"]) ∧
      Lookups.Reaches (CompilerConfig.permits {}) (.start row.apiIds)
        (.done ["d", "a", "b", "c"]) ∧
      fetch failsTwice ["a", "b", "c", "d"] = .error (.lookupFailed "x") ∧
      fetch failsTwice ["a", "b", "c", "d"] ≠ fetch failsTwice ["d", "a", "b", "c"] := by
  have hfirst : fetch failsTwice ["a", "b", "c", "d"] = .error (.lookupFailed "x") := rfl
  have hlast : fetch failsTwice ["d", "a", "b", "c"] = .error (.lookupFailed "y") := rfl
  rw [Lookups.reaches_done_iff_perm (CompilerConfig.permits_pos _),
    Lookups.reaches_done_iff_perm (CompilerConfig.permits_pos _)]
  refine ⟨by decide +kernel, by decide +kernel, hfirst, fun hsame => ?_⟩
  exact absurd (hfirst.symm.trans (hsame.trans hlast)) (by simp)

end Graph

end CallChain
