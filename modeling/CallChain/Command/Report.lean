import CallChain.Command
import CallChain.Http.Live
import CallChain.Load
import CallChain.Verification.Context

/-!
# Carrying out commands

A command reads files, perhaps writes one, and reports. What surrounds it, the files among other
things, is given as functions in a monad, so that a command can be carried out anywhere.

* `Surroundings`: what a command needs around it.
* `Report`: what it prints, and the complaint if it fails.
* `Command.report`: carries a command out.
-/

set_option autoImplicit false

namespace CallChain

/-- **What a command needs around it.** -/
structure Surroundings (m : Type → Type) where
  /-- The content of a file, if it can be read. -/
  read : String → m (Option ByteArray)
  /-- Writes a file and says whether that could be done. -/
  write : String → String → m Bool
  /-- The catalog in the store at an address, under a key if one is named. -/
  store : String → Option String → m RemoteCatalog
  /-- What a live service answers. -/
  exchange : Message → Except String (UInt16 × ByteArray)
  /-- An id for a new tool. -/
  newId : m Uuid

/-- **What a command prints**, and its complaint if it fails. -/
structure Report where
  output : String := ""
  complaint? : Option String := none
deriving DecidableEq, Repr, Inhabited

namespace Report

/-- The line that a complaint starts with. -/
def complaintLine (r : Report) : Option String := r.complaint?.map ("Error: " ++ ·)

/-- The code with which the program ends. -/
def exitCode (r : Report) : UInt8 := if r.complaint?.isSome then 1 else 0

/-- A report of nothing but a complaint. -/
def failed (complaint : String) : Report := { complaint? := some complaint }

/-- A report of one text. -/
def printed (text : String) : Report := { output := text ++ "\n" }

end Report

/-- How the program is used. -/
def usage : String := "\n".intercalate [
  "check --graph F",
  "compile (--graph F (--catalog F | --redis URL [--catalog-key K]) | --request F) [--out F]",
  "verify --tool F --tests F (--fixtures F | --base-url URL) [--config F] [--timeout-ms N]"
    ++ " [--parallel N]"]

/-! ### Addresses of stores -/

/-- Whether a text is a whole number of sixty-four bits, with a sign or without. -/
def isDatabaseNumber (cs : List Char) : Bool :=
  let (negative, digits) := match cs with
    | '-' :: rest => (true, rest)
    | '+' :: rest => (false, rest)
    | cs => (false, cs)
  digits.all Char.isDigit &&
    (digitsIn? 10 digits).any (fun n => if negative then n ≤ Nat.pow 2 63 else n < Nat.pow 2 63)

/-- **Whether a text is the address of a store**: a host, perhaps with a number, and
perhaps the number of a database, or the path of a socket. -/
def isStoreAddress (text : String) : Bool :=
  let cs := text.toList
  let scheme := String.ofList ((cs.takeWhile (· ≠ ':')).map Char.toLower)
  match scheme, cs.dropWhile (· ≠ ':') with
  | "redis", ':' :: '/' :: '/' :: rest =>
    let authority := rest.takeWhile (fun c => c ≠ '/' && c ≠ '?' && c ≠ '#')
    let path := (rest.drop authority.length).takeWhile (fun c => c ≠ '?' && c ≠ '#')
    let database := ((path.dropWhile (· = '/')).reverse.dropWhile (· = '/')).reverse
    Url.isAuthority (authority.reverse.takeWhile (· ≠ '@')).reverse &&
      (database.isEmpty || isDatabaseNumber database)
  | "unix", ':' :: '/' :: _ => true
  | "redis+unix", ':' :: '/' :: _ => true
  | _, _ => false

/-! ### Commands -/

namespace Command

variable {m : Type → Type} [Monad m]

/-- Loads a file. -/
def loadFile {α : Type} (around : Surroundings m)
    (load : String → Option ByteArray → Except LoadError α) (file : String) :
    ExceptT String m α := do
  let content? ← around.read file
  match load file content? with
  | .ok a => return a
  | .error e => throw e.message

/-- Says in which order a graph makes its calls. -/
def checkReport (around : Surroundings m) (file : String) : ExceptT String m Report := do
  let g ← loadFile around Graph.load file
  match g.order with
  | .ok order => return .printed (" -> ".intercalate order)
  | .error e => throw e.message

/-- The definitions of a source, as look-ups. -/
def lookupOf (around : Surroundings m) : Option DefinitionSource → ExceptT String m Lookup
  | none => throw "--graph needs either --catalog or --redis"
  | some (.file file) => return (← loadFile around Catalog.load file).lookup
  | some (.store address key?) => do
    if isStoreAddress address then
      let catalog ← around.store address key?
      return catalog.lookup
    else throw "Invalid Redis URL"

/-- Compiles what a source holds. -/
def compileFrom (around : Surroundings m) :
    CompileSource → ExceptT String m (Except CompileError Tool)
  | .request file => do
    let request ← loadFile around CompileRequest.load file
    return request.compile {} none (← around.newId)
  | .graph file definitions? => do
    let g ← loadFile around Graph.load file
    let lookup ← lookupOf around definitions?
    return g.compile {} none lookup g.apiIds (← around.newId)

/-- Compiles, and prints or writes the tool. Nothing is written when the compilation fails. -/
def compileReport (around : Surroundings m) (source : CompileSource) (out? : Option String) :
    ExceptT String m Report := do
  match ← compileFrom around source, out? with
  | .error e, _ =>
    return {
      output := (CompileResponse.error e.report).document.pretty ++ "\n"
      complaint? := some ("compilation failed: " ++ e.message) }
  | .ok t, none => return .printed t.document.pretty
  | .ok t, some file =>
    if ← around.write file t.document.pretty then return {}
    else throw ("Failed to write tool to " ++ file)

/-- What answers the calls of a tool under test. -/
def connectionOf (around : Surroundings m) : ServiceSource → ExceptT String m Connection
  | .fixtures file => do
    let service : Service := { routes := ← loadFile around Route.loadAll file }
    return service.call
  | .live base =>
    let service : LiveService := { base := base, exchange := around.exchange }
    return service.connection

/-- Runs a tool against test cases. The numbers given with the command win over those of the
configuration. -/
def verifyReport (around : Surroundings m) (o : VerifyOptions) : ExceptT String m Report := do
  let config ← match o.config? with
    | some file => loadFile around VerifierConfig.load file
    | none => pure {}
  let config : VerifierConfig := {
    timeout := o.timeout?.getD config.timeout
    maxParallel := o.parallel?.getD config.maxParallel }
  let t ← loadFile around Tool.load o.tool
  let cases ← loadFile around TestCase.loadAll o.tests
  let connection ← connectionOf around o.service
  let (verdicts, _) := (CallChain.verify t connection config cases).run {}
  let failed := (verdicts.filter (fun v => v.status != .passed)).length
  let results : Document := .record [("results", .list (verdicts.map Verdict.document))]
  return {
    output := results.pretty ++ "\n"
    complaint? := if failed = 0 then none
      else some (s!"{failed} of {verdicts.length} test cases did not pass") }

/-- **Carries a command out.** -/
def report (around : Surroundings m) (c : Command) : m Report := do
  let answer ← ExceptT.run (match c with
    | .check file => checkReport around file
    | .compile source out? => compileReport around source out?
    | .verify options => verifyReport around options
    | .help => pure (.printed usage))
  match answer with
  | .ok r => return r
  | .error complaint => return .failed complaint

end Command

end CallChain
