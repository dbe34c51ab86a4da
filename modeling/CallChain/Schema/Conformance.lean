import CallChain.Schema.Check
import CallChain.Schema.Nullable

/-!
# Conformance

A value conforms to a schema when the schema itself is a schema and none of its keywords objects.
`nullable` is spelled out first.

**References** name a part of the schema by a pointer. They are followed by reading that part in
turn; how often that may happen in a row is bounded by the sizes of schema and value, which no
reference that gets anywhere exceeds.

* `Schema.metaSchema`: the schema of schemas.
* `Schema.violations`: what the keywords of a schema object to.
* `Schema.conforms`: conformance, with `Nonconformance.message`.
-/

set_option autoImplicit false

namespace CallChain.Schema

/-! ### References -/

/-- The bytes that percent signs in a reference stand for. -/
def unescapeReference : List Char → List Char
  | '%' :: a :: b :: rest =>
    match Pattern.hexDigits? [a, b] with
    | some n => Char.ofNat n :: unescapeReference rest
    | none => '%' :: unescapeReference (a :: b :: rest)
  | c :: rest => c :: unescapeReference rest
  | [] => []
termination_by cs => cs.length

/-- A step of a pointer with its escapes undone. -/
def unescapeToken : List Char → List Char
  | '~' :: '1' :: rest => '/' :: unescapeToken rest
  | '~' :: '0' :: rest => '~' :: unescapeToken rest
  | c :: rest => c :: unescapeToken rest
  | [] => []

/-- The steps of a pointer. -/
def pointerSteps (text : String) : List String :=
  ((text.toList.splitOn '/').drop 1).map (fun t => String.ofList (unescapeToken t))

/-- The part of a schema that steps lead to. -/
def follow (schema : Json) : List String → Option Json
  | [] => some schema
  | step :: rest =>
    match schema with
    | .obj members => (Entries.get? members step).bind (fun j => follow j rest)
    | .arr items =>
      match step.toNat? with
      | some i => (items[i]?).bind (fun j => follow j rest)
      | none => none
    | _ => none

/-- The part of a schema that a local reference names. -/
def referent? (root : Json) (reference : String) : Option Json :=
  match reference.toList with
  | ['#'] => some root
  | '#' :: '/' :: more =>
    follow root (pointerSteps (String.ofList (unescapeReference ('/' :: more))))
  | _ => none

/-- What a reference means when references may be followed so many times in a row. -/
def reference (root : Json) : Nat → String → Check
  | 0, _ => accept
  | depth + 1, name =>
    match referent? root name with
    | some schema => (Part.of (reference root depth) schema).check
    | none => fun _ _ => [⟨[], .badReference name⟩]

/-- How often references may be followed in a row: between two steps into the value no reference
is followed twice. -/
def referenceDepth (root value : Json) : Nat := (root.size + 1) * (value.size + 1)

/-- **What the keywords of a schema object to** in a value. -/
def violations (schema value : Json) : List Violation :=
  (Part.of (reference schema (referenceDepth schema value)) schema).check value []

/-! ### The schema of schemas -/

/-- An object with one string member. -/
def single (name value : String) : Json := .obj [(name, .str value)]

/-- A reference to a part. -/
def refTo (target : String) : Json := single "$ref" target

/-- The reference to the schema of schemas itself. -/
def anySchema : Json := refTo "#"

/-- A map from names to schemas. -/
def schemaMap : Json :=
  .obj [("additionalProperties", anySchema), ("default", .obj []), ("type", .str "object")]

/-- The named parts of the schema of schemas. -/
def metaDefinitions : Json := .obj [
  ("nonNegativeInteger", .obj [("minimum", .nat 0), ("type", .str "integer")]),
  ("nonNegativeIntegerDefault0", .obj [("allOf", .arr [
    refTo "#/definitions/nonNegativeInteger", .obj [("default", .nat 0)]])]),
  ("schemaArray", .obj [("items", anySchema), ("minItems", .nat 1), ("type", .str "array")]),
  ("simpleTypes", .obj [("enum", .arr (typeNames.map .str))]),
  ("stringArray", .obj [("default", .arr []), ("items", single "type" "string"),
    ("type", .str "array"), ("uniqueItems", .bool true)])]

/-- What the schema of schemas says about each keyword, in the order of their names. -/
def metaProperties : Json :=
  let text := single "type" "string"
  let number := single "type" "number"
  let flag : Json := .obj [("default", .bool false), ("type", .str "boolean")]
  let upper := refTo "#/definitions/nonNegativeInteger"
  let lower := refTo "#/definitions/nonNegativeIntegerDefault0"
  let schemas := refTo "#/definitions/schemaArray"
  let names := refTo "#/definitions/stringArray"
  let simple := refTo "#/definitions/simpleTypes"
  .obj [
    ("$comment", text),
    ("$id", .obj [("format", .str "uri-reference"), ("type", .str "string")]),
    ("$ref", .obj [("format", .str "uri-reference"), ("type", .str "string")]),
    ("$schema", .obj [("format", .str "uri"), ("type", .str "string")]),
    ("additionalItems", anySchema),
    ("additionalProperties", anySchema),
    ("allOf", schemas),
    ("anyOf", schemas),
    ("const", .bool true),
    ("contains", anySchema),
    ("contentEncoding", text),
    ("contentMediaType", text),
    ("default", .bool true),
    ("definitions", schemaMap),
    ("dependencies", .obj [("additionalProperties", .obj [("anyOf", .arr [anySchema, names])]),
      ("type", .str "object")]),
    ("description", text),
    ("else", anySchema),
    ("enum", .obj [("items", .bool true), ("type", .str "array")]),
    ("examples", .obj [("items", .bool true), ("type", .str "array")]),
    ("exclusiveMaximum", number),
    ("exclusiveMinimum", number),
    ("format", text),
    ("if", anySchema),
    ("items", .obj [("anyOf", .arr [anySchema, schemas]), ("default", .bool true)]),
    ("maxItems", upper),
    ("maxLength", upper),
    ("maxProperties", upper),
    ("maximum", number),
    ("minItems", lower),
    ("minLength", lower),
    ("minProperties", lower),
    ("minimum", number),
    ("multipleOf", .obj [("exclusiveMinimum", .nat 0), ("type", .str "number")]),
    ("not", anySchema),
    ("oneOf", schemas),
    ("pattern", .obj [("format", .str "regex"), ("type", .str "string")]),
    ("patternProperties", .obj [("additionalProperties", anySchema), ("default", .obj []),
      ("propertyNames", single "format" "regex"), ("type", .str "object")]),
    ("properties", schemaMap),
    ("propertyNames", anySchema),
    ("readOnly", flag),
    ("required", names),
    ("then", anySchema),
    ("title", text),
    ("type", .obj [("anyOf", .arr [simple, .obj [("items", simple), ("minItems", .nat 1),
      ("type", .str "array"), ("uniqueItems", .bool true)]])]),
    ("uniqueItems", flag)]

/-- **The schema of schemas**: the types and forms that keywords ask of their own values. -/
def metaSchema : Json := .obj [
  ("$id", .str "http://json-schema.org/draft-07/schema#"),
  ("$schema", .str "http://json-schema.org/draft-07/schema#"),
  ("default", .bool true),
  ("definitions", metaDefinitions),
  ("properties", metaProperties),
  ("title", .str "Core schema meta-schema"),
  ("type", .arr [.str "object", .str "boolean"])]

/-! ### Conformance -/

/-- **Why a value does not conform**: the schema is none, or keywords object. -/
inductive Nonconformance where
  | badSchema (complaint : Complaint)
  | violated (violations : List Violation)

/-- The wording of a nonconformance: the first complaint about the schema, or all violations. -/
def Nonconformance.message : Nonconformance → String
  | .badSchema complaint => "schema is invalid: " ++ complaint.message
  | .violated violations => "; ".intercalate (violations.map Violation.message)

/-- What the schema of schemas objects to first. -/
def objection? (schema : Json) : Option Complaint :=
  ((violations metaSchema schema).head?).map Violation.complaint

/-- **Conformance of a value to a schema.** -/
def conforms (schema value : Json) : Except Nonconformance Unit :=
  let spelled := spellNullable schema
  match objection? spelled with
  | some complaint => .error (.badSchema complaint)
  | none =>
    match violations spelled value with
    | [] => .ok ()
    | found => .error (.violated found)

/-- Whether a value conforms. -/
def isConforming (schema value : Json) : Bool :=
  match conforms schema value with
  | .ok _ => true
  | .error _ => false

end CallChain.Schema
