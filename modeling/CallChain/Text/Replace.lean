/-!
# Replacing parts of a text

* `replaceAll`: every occurrence of a part replaced, from left to right; what was put in is not
  searched again.
-/

set_option autoImplicit false

namespace CallChain.Text

/-- Replaces every occurrence of a part that is not empty. -/
def replaceAll (part new : List Char) (text : List Char) : List Char :=
  match text with
  | [] => []
  | c :: rest =>
    if part.isPrefixOf (c :: rest) then new ++ replaceAll part new (rest.drop (part.length - 1))
    else c :: replaceAll part new rest
termination_by text.length
decreasing_by
  · simp only [List.length_drop, List.length_cons]
    omega
  · simp only [List.length_cons]
    omega

end CallChain.Text
