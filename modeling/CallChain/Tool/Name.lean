import CallChain.Json

/-!
# Names of tools

The name of a tool is made from free text: its runs of ASCII letters and digits in lower case,
joined by underscores.

* `toolName`: the name made from a text.
-/

set_option autoImplicit false

namespace CallChain

/-- Appends the name of the rest of a text to a name. `pending` says that a separator was passed
since the last letter or digit. -/
def toolNameFrom (started pending : Bool) : List Char → List Char
  | [] => []
  | c :: rest =>
    if c.isAlphanum then
      (if pending && started then ['_'] else []) ++ c.toLower :: toolNameFrom true false rest
    else toolNameFrom started true rest

/-- **The name made from a text**: empty if the text has no ASCII letter or digit. -/
def toolName (raw : String) : String := String.ofList (toolNameFrom false false raw.toList)

end CallChain
