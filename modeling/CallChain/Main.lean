import CallChain.Command.Report

/-!
# The program

The command line in front of the library: it reads the words, carries the command out among the
files of the machine, prints the report and ends with its code. There is no network here, so stores
and live services are out of reach.

* `main`: the program.
-/

set_option autoImplicit false

open CallChain

/-- The files of the machine, and no network. -/
def localSurroundings : Surroundings IO where
  read file := do
    try return some (← IO.FS.readBinFile file) catch _ => return none
  write file text := do
    try
      IO.FS.writeFile file text
      return true
    catch _ => return false
  store _ _ := return { outage? := some "Connection refused (os error 111)" }
  exchange m := .error ("error sending request for url (" ++ m.authority ++ m.target ++ ")")
  newId := do
    let bytes ← IO.getRandomBytes 16
    return .ofRandom (bytes.foldl (fun n b => n * 256 + b.toNat) 0)

/-- **The program.** Words that make no sense end it with code two. -/
def main (words : List String) : IO UInt32 := do
  match Command.parse? words with
  | none =>
    IO.eprintln usage
    return 2
  | some command =>
    let r ← command.report localSurroundings
    IO.print r.output
    match r.complaintLine with
    | some line => IO.eprintln line
    | none => pure ()
    return r.exitCode.toUInt32
