import CallChain.Json.Text

/-!
# Documents

What is written out keeps the declared order of a record's fields, while the members of a free
JSON value are sorted. A `Document` is a value on its way out: records on top, free values at the
leaves.

* `Document.toJson`: the JSON value that a document denotes.
* `Document.text`, `Document.pretty`: its texts, with fields in declared order.
-/

set_option autoImplicit false

namespace CallChain

/-- **A value to be written**, whose records keep the order of their fields. -/
inductive Document where
  | value (json : Json)
  | list (items : List Document)
  | record (fields : List (String × Document))
deriving Inhabited

namespace Document

/-- A string as a document. -/
def str (s : String) : Document := .value (.str s)

/-- A natural number as a document. -/
def nat (n : Nat) : Document := .value (.nat n)

/-- A field that is left out when there is nothing to write. -/
def optional (name : String) (field : Option Document) : List (String × Document) :=
  field.toList.map ((name, ·))

mutual

/-- The value with the fields of records in declared order. -/
def inOrder : Document → Json
  | .value j => j
  | .list items => .arr (inOrderItems items)
  | .record fields => .obj (inOrderFields fields)

/-- The values of items. -/
def inOrderItems : List Document → List Json
  | [] => []
  | d :: rest => inOrder d :: inOrderItems rest

/-- The values of fields. -/
def inOrderFields : List (String × Document) → List (String × Json)
  | [] => []
  | (k, d) :: rest => (k, inOrder d) :: inOrderFields rest

end

mutual

/-- **The JSON value that a document denotes**, with sorted members throughout. -/
def toJson : Document → Json
  | .value j => j
  | .list items => .arr (toJsonItems items)
  | .record fields => Json.ofPairs (toJsonFields fields)

/-- The values of items. -/
def toJsonItems : List Document → List Json
  | [] => []
  | d :: rest => toJson d :: toJsonItems rest

/-- The values of fields, in declared order. -/
def toJsonFields : List (String × Document) → List (String × Json)
  | [] => []
  | (k, d) :: rest => (k, toJson d) :: toJsonFields rest

end

/-- The compact text, fields in declared order. -/
def text (d : Document) : String := d.inOrder.compact

/-- The indented text, fields in declared order. -/
def pretty (d : Document) : String := d.inOrder.pretty

end Document

end CallChain
