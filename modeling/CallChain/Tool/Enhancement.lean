import CallChain.Tool
import CallChain.Tool.Name
import CallChain.Text.Blank
import CallChain.Text.Replace

/-!
# Rewording tools

An enhancer may give a tool another name and another description, and nothing else.

* `Enhancer`, `Tool.enhance`: the effect of an enhancer, which may fail.
* `Template`: an enhancer that fills in what it is told about the tool.
-/

set_option autoImplicit false

namespace CallChain

/-- **A source of better words** for a tool; it may fail. -/
abbrev Enhancer := Metadata → Tool → Except String Metadata

/-- **The effect of an enhancer.** The answer's name is put into the form of names; when nothing is
left of it, or when there is no answer, the tool stays as it is. A blank description does not
replace the old one. -/
def Tool.enhance (t : Tool) (e : Enhancer) : Tool :=
  match e t.metadata t with
  | .error _ => t
  | .ok answer =>
    let name := toolName answer.name
    if name.isEmpty then t
    else { t with
      name := name
      description := if Text.isBlankText answer.description then t.description
        else answer.description }

/-- **Wording with gaps** for the present name, the present description and the number of steps;
or the reason why there is none. -/
structure Template where
  name : String := ""
  description : String := ""
  failure? : Option String := none

namespace Template

/-- Fills the gaps of a text, one kind after another. -/
def fill (text : String) (present : Metadata) (steps : Nat) : String :=
  let gap (name : String) : List Char := '\x7b' :: name.toList ++ ['\x7d']
  let named := Text.replaceAll (gap "name") present.name.toList text.toList
  let described := Text.replaceAll (gap "description") present.description.toList named
  String.ofList (Text.replaceAll (gap "steps") (toString steps).toList described)

/-- A template as an enhancer. -/
def enhancer (template : Template) : Enhancer := fun present t =>
  match template.failure? with
  | some reason => .error reason
  | none => .ok {
      name := fill template.name present t.steps.length
      description := fill template.description present t.steps.length }

end Template

end CallChain
