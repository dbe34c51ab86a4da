import CallChain.Entries
import CallChain.Number.Reading

/-!
# Commands

What the program can be asked to do, and how the words of a command line ask it.

* `Command`: the commands.
* `OptionSpec`, `readOptions`: options and their values.
* `Command.parse?`: the command of a command line; none if the words make no sense.
-/

set_option autoImplicit false

namespace CallChain

/-- Where definitions are looked up. -/
inductive DefinitionSource where
  /-- A file that lists them. -/
  | file (name : String)
  /-- A store of texts at an address, under a key if one is named. -/
  | store (address : String) (key? : Option String)
deriving DecidableEq, Repr

/-- What is compiled. -/
inductive CompileSource where
  /-- A file that holds a graph and definitions. -/
  | request (file : String)
  /-- A file that holds a graph; where its definitions are has perhaps not been said. -/
  | graph (file : String) (definitions? : Option DefinitionSource)
deriving DecidableEq, Repr

/-- What answers the calls of a tool under test. -/
inductive ServiceSource where
  /-- A file with canned responses. -/
  | fixtures (file : String)
  /-- A live service at an address. -/
  | live (base : String)
deriving DecidableEq, Repr

/-- What a verification takes. -/
structure VerifyOptions where
  tool : String
  tests : String
  service : ServiceSource
  config? : Option String := none
  timeout? : Option UInt64 := none
  parallel? : Option UInt64 := none
deriving DecidableEq, Repr

/-- **What the program can be asked to do.** -/
inductive Command where
  /-- Say in which order a graph makes its calls. -/
  | check (graph : String)
  /-- Compile, and perhaps write the tool into a file. -/
  | compile (source : CompileSource) (out? : Option String)
  /-- Run a tool against test cases. -/
  | verify (options : VerifyOptions)
  /-- Say how the program is used. -/
  | help
deriving DecidableEq, Repr

/-! ### Options -/

/-- What an option takes as its value. -/
inductive OptionKind where
  /-- A file, whose name is not empty. -/
  | file
  | text
  /-- A number of sixty-four bits. -/
  | number
deriving DecidableEq, Repr

/-- **An option**: its name, perhaps a letter for short, and what it takes. -/
structure OptionSpec where
  name : String
  letter? : Option Char := none
  kind : OptionKind := .file
deriving DecidableEq, Repr

/-- The number that a word stands for; a plus sign may precede it. -/
def wordNumber? (word : String) : Option UInt64 :=
  let digits := match word.toList with
    | '+' :: rest => rest
    | cs => cs
  if digits.all Char.isDigit then
    (digitsIn? 10 digits).bind (fun n => if n < Nat.pow 2 64 then some n.toUInt64 else none)
  else none

/-- Whether an option takes a value. -/
def OptionKind.accepts (kind : OptionKind) (value : String) : Bool :=
  match kind with
  | .file => value ≠ ""
  | .text => true
  | .number => (wordNumber? value).isSome

/-- How a word starts an option. -/
inductive OptionStart where
  /-- With the value in the same word. -/
  | joined (name value : String)
  /-- With the value in the next word. -/
  | separate (name : String)
  /-- By asking for help. -/
  | help
deriving DecidableEq, Repr

/-- The option that a word starts. -/
def OptionStart.ofWord? (specs : List OptionSpec) (word : String) : Option OptionStart :=
  match word.toList with
  | '-' :: '-' :: rest =>
    let name := String.ofList (rest.takeWhile (· ≠ '='))
    if (specs.find? (·.name = name)).isSome then
      match rest.dropWhile (· ≠ '=') with
      | [] => some (.separate name)
      | _ :: value => some (.joined name (String.ofList value))
    else if word = "--help" then some .help
    else none
  | '-' :: letter :: rest =>
    match specs.find? (·.letter? = some letter), rest with
    | some spec, [] => some (.separate spec.name)
    | some spec, '=' :: value => some (.joined spec.name (String.ofList value))
    | some spec, value => some (.joined spec.name (String.ofList value))
    | none, _ => if letter = 'h' then some .help else none
  | _ => none

/-- Whether a word can be the value of the option before it. -/
def isValueWord (word : String) : Bool :=
  match word.toList with
  | '-' :: _ :: _ => false
  | _ => true

/-- Adds an option with its value, if it takes that value and has not been given before. -/
def addOption (specs : List OptionSpec) (name value : String) (given : Entries String) :
    Option (Entries String) := do
  let spec ← specs.find? (·.name = name)
  if spec.kind.accepts value && !Entries.has given name then
    return Entries.insert name value given
  else none

/-- **The options that words give**, each once, or `none` within where help is asked for. Words that
give no option make no sense. -/
def readOptions (specs : List OptionSpec) :
    List String → Entries String → Option (Option (Entries String))
  | [], given => some (some given)
  | ["--"], given => some (some given)
  | word :: rest, given =>
    match OptionStart.ofWord? specs word, rest with
    | none, _ => none
    | some .help, _ => some none
    | some (.joined name value), rest =>
      match addOption specs name value given with
      | some given => readOptions specs rest given
      | none => none
    | some (.separate _), [] => none
    | some (.separate name), value :: rest =>
      if isValueWord value then
        match addOption specs name value given with
        | some given => readOptions specs rest given
        | none => none
      else none

/-! ### Commands -/

namespace Command

/-- The options of `check`. -/
def checkSpecs : List OptionSpec := [{ name := "graph", letter? := some 'g' }]

/-- The options of `compile`. -/
def compileSpecs : List OptionSpec := [
  { name := "graph", letter? := some 'g' },
  { name := "catalog", letter? := some 'c' },
  { name := "redis", kind := .text },
  { name := "catalog-key", kind := .text },
  { name := "request" },
  { name := "out", letter? := some 'o' }]

/-- The options of `verify`. -/
def verifySpecs : List OptionSpec := [
  { name := "tool" },
  { name := "tests" },
  { name := "base-url", kind := .text },
  { name := "fixtures" },
  { name := "config" },
  { name := "timeout-ms", kind := .number },
  { name := "parallel", kind := .number }]

/-- The command `check`. -/
def ofCheck? (given : Entries String) : Option Command :=
  (Entries.get? given "graph").map .check

/-- The command `compile`. A request excludes a graph and definitions; a list of definitions excludes
a store. -/
def ofCompile? (given : Entries String) : Option Command :=
  let out? := Entries.get? given "out"
  let key? := Entries.get? given "catalog-key"
  match Entries.get? given "request", Entries.get? given "graph", Entries.get? given "catalog",
    Entries.get? given "redis" with
  | some file, none, none, none => some (.compile (.request file) out?)
  | some _, _, _, _ => none
  | none, none, _, _ => none
  | none, some _, some _, some _ => none
  | none, some graph, some file, none => some (.compile (.graph graph (some (.file file))) out?)
  | none, some graph, none, some address =>
    some (.compile (.graph graph (some (.store address key?))) out?)
  | none, some graph, none, none => some (.compile (.graph graph none) out?)

/-- The command `verify`. Canned responses exclude a live service, and one of the two is needed. -/
def ofVerify? (given : Entries String) : Option Command := do
  let tool ← Entries.get? given "tool"
  let tests ← Entries.get? given "tests"
  let service ← match Entries.get? given "fixtures", Entries.get? given "base-url" with
    | some file, none => some (.fixtures file)
    | none, some base => some (.live base)
    | _, _ => none
  return .verify {
    tool := tool
    tests := tests
    service := service
    config? := Entries.get? given "config"
    timeout? := (Entries.get? given "timeout-ms").bind wordNumber?
    parallel? := (Entries.get? given "parallel").bind wordNumber? }

/-- The command that options give, unless they ask for help. -/
def ofWords? (specs : List OptionSpec) (command? : Entries String → Option Command)
    (words : List String) : Option Command :=
  match readOptions specs words [] with
  | none => none
  | some none => some .help
  | some (some given) => command? given

/-- **The command of a command line**; none if its words make no sense. -/
def parse? : List String → Option Command
  | "check" :: words => ofWords? checkSpecs ofCheck? words
  | "compile" :: words => ofWords? compileSpecs ofCompile? words
  | "verify" :: words => ofWords? verifySpecs ofVerify? words
  | word :: _ => if word ∈ ["help", "-h", "--help"] then some .help else none
  | [] => none

end Command

end CallChain
