import CallChain.Proofs.Compile.Outcomes
import CallChain.Proofs.Compile.Wire

/-!
# Catalogs in use

A catalog is written to and asked, in any order. What a look-up has to answer is the definition that
was last written under the id, or nothing if there was none (`CallChain.CatalogUse.answers`). Any
kind of catalog in which the last writing counts (`CallChain.CatalogKind.LastWins`) answers so after
every history of use (`CallChain.CatalogKind.LastWins.exists_run_eq_ok`).

Both kinds of catalogs are of that sort. In memory this is a matter of tables. In a store of texts a
definition is written and read again, so nothing of it may be lost on the way; that is a matter of
`CallChain.ApiDefinition.Canonical.restores`. It follows that the two kinds cannot be told apart,
not even by compiling graphs against them (`CallChain.CatalogKind.inStore_agrees_with_inMemory`).
-/

set_option autoImplicit false

namespace CallChain

/-! ### Histories -/

/-- **One use of a catalog.** -/
inductive CatalogUse where
  /-- A definition is written under its id. -/
  | write (api : ApiDefinition)
  /-- An id is looked up. -/
  | lookUp (id : String)

/-- **The definition last written under an id**, among definitions in the order in which they were
written. -/
def lastWritten? (written : List ApiDefinition) (id : String) : Option ApiDefinition :=
  written.reverse.find? (·.id == id)

theorem lastWritten?_concat (written : List ApiDefinition) (api : ApiDefinition) (id : String) :
    lastWritten? (written ++ [api]) id =
      if api.id = id then some api else lastWritten? written id := by
  rw [lastWritten?, List.reverse_concat, List.find?_cons]
  split
  · rename_i h
    rw [if_pos (beq_iff_eq.mp h)]
  · rename_i h
    rw [if_neg (beq_eq_false_iff_ne.mp h), lastWritten?]

namespace CatalogUse

/-- All definitions that are written. -/
def written : List CatalogUse → List ApiDefinition
  | [] => []
  | write api :: rest => api :: written rest
  | lookUp _ :: rest => written rest

/-- **What the look-ups have to answer**, one after another: the definition last written under the
id, before the history or in it. -/
def answers (before : List ApiDefinition) : List CatalogUse → List (Option ApiDefinition)
  | [] => []
  | write api :: rest => answers (before ++ [api]) rest
  | lookUp id :: rest => lastWritten? before id :: answers before rest

end CatalogUse

/-- **A kind of catalog**: how it is written to and how it is asked. -/
structure CatalogKind (σ : Type) where
  write : σ → ApiDefinition → Except CatalogError σ
  lookup : σ → Lookup

namespace CatalogKind

variable {σ : Type} {kind : CatalogKind σ} {Fit : ApiDefinition → Prop} {Ready : σ → Prop}

/-- **A history of use**: what the look-ups answer, one after another, and the catalog at the end. A
definition that cannot be written ends it. -/
def run (kind : CatalogKind σ) : σ → List CatalogUse →
    Except CatalogError (List (Except CatalogError (Option ApiDefinition)) × σ)
  | catalog, [] => .ok ([], catalog)
  | catalog, .write api :: rest => do
    let catalog ← kind.write catalog api
    run kind catalog rest
  | catalog, .lookUp id :: rest => do
    let (answers, last) ← run kind catalog rest
    return (kind.lookup catalog id :: answers, last)

/-- Catalogs held in memory. -/
def inMemory : CatalogKind Catalog := ⟨fun catalog api => .ok (catalog.insert api), Catalog.lookup⟩

/-- Catalogs in a store of texts. -/
def inStore : CatalogKind RemoteCatalog := ⟨RemoteCatalog.put, RemoteCatalog.lookup⟩

/-! ### One use -/

/-- **The last writing counts.** A fit definition can be written to a catalog that is ready; from
then on it is found under its id, all other look-ups answer as before, and the catalog is ready for
the next one. -/
def LastWins (kind : CatalogKind σ) (Fit : ApiDefinition → Prop) (Ready : σ → Prop) : Prop :=
  ∀ catalog api, Ready catalog → Fit api → ∃ catalog', kind.write catalog api = .ok catalog' ∧
    Ready catalog' ∧
    ∀ id, kind.lookup catalog' id = if api.id = id then .ok (some api) else kind.lookup catalog id

/-- **A catalog holds what was written**: every look-up finds what was last written under the id. -/
def Holds (kind : CatalogKind σ) (catalog : σ) (written : List ApiDefinition) : Prop :=
  ∀ id, kind.lookup catalog id = .ok (lastWritten? written id)

/-- In memory every definition can be written. -/
theorem lastWins_inMemory : inMemory.LastWins (fun _ => True) (fun _ => True) := by
  intro catalog api _ _
  refine ⟨catalog.insert api, rfl, trivial, fun id => ?_⟩
  by_cases hid : api.id = id
  · rw [if_pos hid, ← hid]
    exact congrArg Except.ok (catalog.get?_insert_self api)
  · rw [if_neg hid]
    exact congrArg Except.ok (catalog.get?_insert_of_ne api (Ne.symm hid))

/-- **In a store that can be reached** every definition can be written that is in canonical form and
whose text reads back. -/
theorem lastWins_inStore :
    inStore.LastWins (fun api => api.Canonical ∧ api.document.inOrder.ReadsBack)
      (fun catalog => catalog.outage? = none) := by
  rintro catalog api hready ⟨hcanonical, hreads⟩
  have hdecode : decodeText ApiDefinition.decoder api.document.text = .ok api :=
    hcanonical.restores.decodeText_eq_ok hreads
  refine ⟨catalog.putText api.id api.document.text, ?_, hready, fun id => ?_⟩
  · simp only [inStore, RemoteCatalog.put, hready]
  · simp only [inStore, RemoteCatalog.lookup, RemoteCatalog.putText, hready, Entries.get?_insert]
    by_cases hid : api.id = id
    · simp only [if_pos hid, hdecode]
    · simp only [if_neg hid]

/-! ### Histories of use -/

/-- **Where the last writing counts, every history is answered as it has to be**, and the catalog
holds at its end what was written before the history and in it. -/
theorem LastWins.exists_run_eq_ok (h : kind.LastWins Fit Ready) {catalog : σ}
    (hready : Ready catalog) {before : List ApiDefinition} (hholds : kind.Holds catalog before)
    {uses : List CatalogUse} (hfit : ∀ api ∈ CatalogUse.written uses, Fit api) :
    ∃ last, kind.run catalog uses = .ok ((CatalogUse.answers before uses).map .ok, last) ∧
      kind.Holds last (before ++ CatalogUse.written uses) := by
  induction uses generalizing catalog before with
  | nil => exact ⟨catalog, rfl, by rwa [CatalogUse.written, List.append_nil]⟩
  | cons use rest ih =>
    cases use with
    | write api =>
      obtain ⟨hapi, hrest⟩ := List.forall_mem_cons.mp hfit
      obtain ⟨catalog', hwrite, hready', hlookup⟩ := h catalog api hready hapi
      have hholds' : kind.Holds catalog' (before ++ [api]) := by
        intro id
        rw [hlookup, hholds, lastWritten?_concat, apply_ite Except.ok]
      obtain ⟨last, hrun, hlast⟩ := ih hready' hholds' hrest
      refine ⟨last, ?_, ?_⟩
      · rw [run, hwrite]
        exact hrun
      · rwa [List.append_assoc, List.singleton_append] at hlast
    | lookUp id =>
      obtain ⟨last, hrun, hlast⟩ := ih hready hholds hfit
      refine ⟨last, ?_, hlast⟩
      rw [run, hrun, CatalogUse.answers, List.map_cons, ← hholds id]
      rfl

/-- **A store of texts and a catalog in memory cannot be told apart.** Let the same definitions be
written to both and the same ids be looked up, in any order, from the beginning. Every definition is
written, and every look-up answers on both sides with the definition last written under the id, or
with nothing. Afterwards both lead to the same outcome of every compilation, in whatever orders the
look-ups of the two compilations complete: with one id for both to the same, with an enhancer or
without; and with different ids to tools that differ in the id only, or to the same error. -/
theorem inStore_agrees_with_inMemory (uses : List CatalogUse)
    (h : ∀ api ∈ CatalogUse.written uses, api.Canonical ∧ api.document.inOrder.ReadsBack) :
    ∃ (catalog : Catalog) (store : RemoteCatalog),
      inMemory.run {} uses = .ok ((CatalogUse.answers [] uses).map .ok, catalog) ∧
      inStore.run {} uses = .ok ((CatalogUse.answers [] uses).map .ok, store) ∧
      (∀ id, catalog.lookup id = .ok (lastWritten? (CatalogUse.written uses) id)) ∧
      (∀ id, store.lookup id = .ok (lastWritten? (CatalogUse.written uses) id)) ∧
      ∀ (g : Graph) (config : CompilerConfig) (enhancer? : Option Enhancer)
        (completed completed' : List String),
        Lookups.Reaches config.permits (.start g.apiIds) (.done completed) →
        Lookups.Reaches config.permits (.start g.apiIds) (.done completed') →
        (∀ id, g.compile config enhancer? store.lookup completed id =
          g.compile config enhancer? catalog.lookup completed' id) ∧
        (config.enhance = false ∨ enhancer? = none → ∀ id id',
          (g.compile config enhancer? store.lookup completed id).map
            (fun t => { t with id := id' }) =
          g.compile config enhancer? catalog.lookup completed' id') := by
  -- In the beginning both are empty, and so is what was written.
  have hempty : inMemory.Holds {} [] := fun _ => rfl
  have hblank : inStore.Holds {} [] := fun _ => rfl
  obtain ⟨catalog, hcatalog, hmemory⟩ :=
    lastWins_inMemory.exists_run_eq_ok trivial hempty fun _ _ => trivial
  obtain ⟨store, hstore, htexts⟩ := lastWins_inStore.exists_run_eq_ok rfl hblank h
  refine ⟨catalog, store, hcatalog, hstore, hmemory, htexts, ?_⟩
  intro g config enhancer? completed completed' hdone hdone'
  have hlookup : store.lookup = catalog.lookup :=
    funext fun id => (htexts id).trans (hmemory id).symm
  -- No look-up fails, so the order in which they complete makes no difference.
  obtain ⟨definitions, hfound, -⟩ :=
    exists_fetch_eq_ok fun id (_ : id ∈ completed') => hmemory id
  have hfetch : fetch catalog.lookup completed = fetch catalog.lookup completed' :=
    (fetch_eq_ok_of_perm hfound (Lookups.perm_of_reaches_done hdone hdone')).trans hfound.symm
  rw [hlookup]
  have hcompile : ∀ id, g.compile config enhancer? catalog.lookup completed id =
      g.compile config enhancer? catalog.lookup completed' id := by
    intro id
    rw [Graph.compile, Graph.compile, hfetch]
  exact ⟨hcompile, fun hoff id id' => by rw [hcompile, Graph.compile_map_id hoff]⟩

/-- A definition with a path of one's choice. -/
def showAt (path : String) : ApiDefinition where
  id := "show"
  method := .get
  path := path
  summary := some "Shows one item"
  parameters := [{ name := "id", location := .path }]
  responses := [("200", .obj [("type", .str "object")])]

theorem canonical_showAt (path : String) : (showAt path).Canonical where
  parameters := List.forall_mem_singleton.mpr Json.canonical_obj_nil
  responses :=
    ⟨List.pairwise_singleton _ _, ⟨List.pairwise_singleton _ _, trivial, trivial⟩, trivial⟩

theorem readsBack_showAt (path : String) : (showAt path).document.inOrder.ReadsBack := by
  refine Json.readsBack ?_ ?_
  · simp [showAt, ApiDefinition.document, Parameter.document, Document.inOrder,
      Document.inOrderFields, Document.inOrderItems, Document.str, Document.optional, Json.Legible,
      Json.LegibleItems, Json.LegibleMembers]
  · show 4 < Json.depthLimit
    decide

/-- A definition is written and then replaced; it is looked up before, in between and after, and so
is an id that is never written. -/
def revision : List CatalogUse :=
  [.lookUp "show", .write (showAt "/items/\x7bid\x7d"), .lookUp "show",
    .write (showAt "/things/\x7bid\x7d"), .lookUp "show", .lookUp "list"]

/-- Both kinds of catalogs answer with nothing, the first definition, the second one and nothing
again. -/
theorem revision_agrees :
    ∃ (catalog : Catalog) (store : RemoteCatalog),
      inMemory.run {} revision = .ok ([.ok none, .ok (some (showAt "/items/\x7bid\x7d")),
        .ok (some (showAt "/things/\x7bid\x7d")), .ok none], catalog) ∧
      inStore.run {} revision = .ok ([.ok none, .ok (some (showAt "/items/\x7bid\x7d")),
        .ok (some (showAt "/things/\x7bid\x7d")), .ok none], store) ∧
      ∀ g : Graph, g.compile {} none store.lookup g.apiIds .nil =
        g.compile {} none catalog.lookup g.apiIds .nil := by
  have hfit : ∀ api ∈ CatalogUse.written revision,
      api.Canonical ∧ api.document.inOrder.ReadsBack := by
    refine List.forall_mem_cons.mpr ⟨⟨canonical_showAt _, readsBack_showAt _⟩, ?_⟩
    exact List.forall_mem_singleton.mpr ⟨canonical_showAt _, readsBack_showAt _⟩
  obtain ⟨catalog, store, hcatalog, hstore, -, -, hcompile⟩ :=
    inStore_agrees_with_inMemory revision hfit
  refine ⟨catalog, store, hcatalog, hstore, fun g => ?_⟩
  have hdone : Lookups.Reaches (CompilerConfig.permits {}) (.start g.apiIds) (.done g.apiIds) :=
    (Lookups.reaches_done_iff_perm (CompilerConfig.permits_pos _)).mpr (.refl _)
  exact (hcompile g {} none g.apiIds g.apiIds hdone hdone).1 .nil

end CatalogKind

end CallChain
