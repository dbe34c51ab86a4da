import CallChain.Graph
import CallChain.Json.Decoder

/-!
# Workflow graphs on the wire

* `Mapping.decoder`, `Node.decoder`, `Edge.decoder`, `Graph.decoder`.
* `Mapping.document`, `Node.document`, `Edge.document`, `Graph.document`: overrides and mappings
  are left out when there are none, a description when it is missing.
-/

set_option autoImplicit false

namespace CallChain

/-- A mapping; its paths are not looked at. -/
def Mapping.decoder : Decoder Mapping :=
  Decoder.record "struct DataMapping"
    (Mapping.mk <$> Fields.required "from" Decoder.string <*> Fields.required "to" Decoder.string)

/-- A mapping. -/
def Mapping.document (m : Mapping) : Document :=
  .record [("from", .str m.source), ("to", .str m.target)]

/-- A node. -/
def Node.decoder : Decoder Node :=
  Decoder.record "struct WorkflowNode"
    (Node.mk <$> Fields.required "id" Decoder.string
      <*> Fields.required "api" Decoder.string
      <*> Fields.optional "overrides" Decoder.freeMembers [])

/-- A list that is left out when it is empty. -/
def Document.listUnlessEmpty (name : String) (items : List Document) : List (String × Document) :=
  if items.isEmpty then [] else [(name, .list items)]

/-- Members that are left out when there are none. -/
def Document.membersUnlessEmpty (name : String) (members : Members) : List (String × Document) :=
  if members.isEmpty then [] else [(name, .value (.obj members))]

/-- A node. -/
def Node.document (n : Node) : Document := .record <|
  [("id", .str n.id), ("api", .str n.api)] ++ Document.membersUnlessEmpty "overrides" n.overrides

/-- An edge. -/
def Edge.decoder : Decoder Edge :=
  Decoder.record "struct WorkflowEdge"
    (Edge.mk <$> Fields.required "source" Decoder.string
      <*> Fields.required "target" Decoder.string
      <*> Fields.optional "mappings" (Decoder.list Mapping.decoder) [])

/-- An edge. -/
def Edge.document (e : Edge) : Document := .record <|
  [("source", .str e.source), ("target", .str e.target)]
    ++ Document.listUnlessEmpty "mappings" (e.mappings.map Mapping.document)

namespace Graph

/-- A graph; its edges may be missing. -/
def decoder : Decoder Graph :=
  Decoder.record "struct WorkflowGraph"
    (Graph.mk <$> Fields.required "id" Decoder.string
      <*> Fields.required "name" Decoder.string
      <*> Fields.optional "description" (Decoder.option Decoder.string) none
      <*> Fields.required "nodes" (Decoder.list Node.decoder)
      <*> Fields.optional "edges" (Decoder.list Edge.decoder) [])

/-- A graph. -/
def document (g : Graph) : Document := .record <|
  [("id", .str g.id), ("name", .str g.name)]
    ++ Document.optional "description" (g.description.map .str)
    ++ [("nodes", .list (g.nodes.map Node.document)), ("edges", .list (g.edges.map Edge.document))]

end Graph

end CallChain
