import CallChain.Catalog
import CallChain.Compile.Wire
import CallChain.Routes.Wire
import CallChain.Verification.Wire
import CallChain.Yaml.Node

/-!
# Loading files

What is loaded from files: graphs, catalogs, test cases, route tables and the configuration of the
verifier are written in YAML, tools and requests to compile in JSON.

* `FileFormat`, `LoadError`: why a file cannot be loaded, with `LoadError.message`.
* `load`: decodes the content of a file.
* `Graph.load`, `Catalog.load`, `Tool.load`, …: what may be loaded.
-/

set_option autoImplicit false

namespace CallChain

/-- The format of a file. -/
inductive FileFormat where
  | yaml
  | json
deriving DecidableEq, Repr

/-- The name of a format. -/
def FileFormat.name : FileFormat → String
  | .yaml => "YAML"
  | .json => "JSON"

/-- **Why a file cannot be loaded.** -/
inductive LoadError where
  /-- There is no such file, or its content is no text. -/
  | unreadable (format : FileFormat) (file : String)
  /-- The text is not what it should be. -/
  | undecodable (format : FileFormat) (file : String)
deriving DecidableEq, Repr

/-- The wording of an error. -/
def LoadError.message : LoadError → String
  | .unreadable format file => "Failed to read " ++ format.name ++ " file from " ++ file
  | .undecodable format file =>
    "Failed to deserialize " ++ format.name ++ " content from " ++ file

/-- Decodes a text in a format. -/
def FileFormat.decode {α : Type} (format : FileFormat) (d : Decoder α) (text : String) :
    Except DecodeError α :=
  match format with
  | .yaml => decodeYaml d text
  | .json => decodeText d text

/-- **Decodes the content of a file**, which there is if there is the file. -/
def load {α : Type} (format : FileFormat) (d : Decoder α) (file : String)
    (content? : Option ByteArray) : Except LoadError α :=
  match content?.bind String.fromUTF8? with
  | none => .error (.unreadable format file)
  | some text => (format.decode d text).mapError (fun _ => .undecodable format file)

/-! ### What may be loaded -/

/-- Loads a graph. -/
def Graph.load : String → Option ByteArray → Except LoadError Graph :=
  CallChain.load .yaml Graph.decoder

/-- Loads a catalog, which is a list of definitions; of several with one id the last counts. -/
def Catalog.load : String → Option ByteArray → Except LoadError Catalog :=
  CallChain.load .yaml ((Decoder.list ApiDefinition.decoder).map Catalog.ofList)

/-- Loads a tool. -/
def Tool.load : String → Option ByteArray → Except LoadError Tool :=
  CallChain.load .json Tool.decoder

/-- Loads a request to compile. -/
def CompileRequest.load : String → Option ByteArray → Except LoadError CompileRequest :=
  CallChain.load .json CompileRequest.decoder

/-- Loads test cases. -/
def TestCase.loadAll : String → Option ByteArray → Except LoadError (List TestCase) :=
  CallChain.load .yaml (Decoder.list TestCase.decoder)

/-- Loads the configuration of the verifier. -/
def VerifierConfig.load : String → Option ByteArray → Except LoadError VerifierConfig :=
  CallChain.load .yaml VerifierConfig.decoder

/-- Loads the routes of a table. -/
def Route.loadAll : String → Option ByteArray → Except LoadError (List Route) :=
  CallChain.load .yaml routesDecoder

end CallChain
