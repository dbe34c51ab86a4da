import CallChain.Api.Wire

/-!
# Catalogs

A catalog knows definitions of operations by their ids. Looking an id up may fail; an id that the
catalog does not know is no failure.

* `CatalogError`, `Lookup`: a look-up in any catalog.
* `Catalog`: a catalog held in memory, with `Catalog.insert` and `Catalog.get?`
  (`Catalog.get?_insert_self`, `Catalog.get?_insert_of_ne`).
* `RemoteCatalog`: definitions as texts in a store that may be out of reach.
-/

set_option autoImplicit false

namespace CallChain

/-- **Why a look-up fails.** -/
inductive CatalogError where
  /-- The store cannot be reached. -/
  | backend (reason : String)
  /-- The stored text is no definition. -/
  | undecodable (id : String) (error : DecodeError)
  /-- The look-up itself came to grief. -/
  | lookupFailed (reason : String)

/-- The wording of an error. -/
def CatalogError.message : CatalogError → String
  | .backend reason => "catalog backend error: " ++ reason
  | .undecodable id error =>
    "definition `" ++ id ++ "` could not be decoded: " ++ error.placedMessage
  | .lookupFailed reason => "catalog lookup task failed: " ++ reason

/-- **A look-up** by id, in any catalog. -/
abbrev Lookup := String → Except CatalogError (Option ApiDefinition)

/-! ### In memory -/

/-- **A catalog held in memory.** -/
structure Catalog where
  definitions : Entries ApiDefinition := []
deriving Inhabited

namespace Catalog

/-- Adds a definition under its id; one that was there is replaced. -/
def insert (c : Catalog) (api : ApiDefinition) : Catalog := ⟨Entries.insert api.id api c.definitions⟩

/-- The definition of an id. -/
def get? (c : Catalog) (id : String) : Option ApiDefinition := Entries.get? c.definitions id

/-- The number of definitions. -/
def size (c : Catalog) : Nat := c.definitions.length

/-- A catalog of definitions; of several with one id the last counts. -/
def ofList (apis : List ApiDefinition) : Catalog := apis.foldl insert {}

/-- Looking up in memory never fails. -/
def lookup (c : Catalog) : Lookup := fun id => .ok (c.get? id)

theorem get?_insert_self (c : Catalog) (api : ApiDefinition) :
    (c.insert api).get? api.id = some api :=
  Entries.get?_insert_self _ _ _

theorem get?_insert_of_ne {id : String} (c : Catalog) (api : ApiDefinition) (h : id ≠ api.id) :
    (c.insert api).get? id = c.get? id :=
  Entries.get?_insert_of_ne h _ _

end Catalog

/-! ### In a store -/

/-- **A catalog in a store of texts.** -/
structure RemoteCatalog where
  /-- Why the store cannot be reached, if it cannot. -/
  outage? : Option String := none
  texts : Entries String := []

namespace RemoteCatalog

/-- Writes a text under an id, whatever it says. -/
def putText (c : RemoteCatalog) (id text : String) : RemoteCatalog :=
  { c with texts := Entries.insert id text c.texts }

/-- Writes a definition under its id. -/
def put (c : RemoteCatalog) (api : ApiDefinition) : Except CatalogError RemoteCatalog :=
  match c.outage? with
  | some reason => .error (.backend reason)
  | none => .ok (c.putText api.id api.document.text)

/-- Looks an id up and decodes what is stored under it. -/
def lookup (c : RemoteCatalog) : Lookup := fun id =>
  match c.outage? with
  | some reason => .error (.backend reason)
  | none =>
    match Entries.get? c.texts id with
    | none => .ok none
    | some text =>
      match decodeText ApiDefinition.decoder text with
      | .ok api => .ok (some api)
      | .error e => .error (.undecodable id e)

end RemoteCatalog

end CallChain
