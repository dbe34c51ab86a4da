/-!
# Faults of YAML texts

* `YamlFault`: why reading a YAML text stopped, with `YamlFault.message`.
-/

set_option autoImplicit false

namespace CallChain

/-- **Why reading a YAML text stopped.** -/
inductive YamlFault where
  | controlCharacter
  | strayCharacter
  | missingColon
  | misplacedEntry
  | misplacedKey
  | misplacedValue
  | tabAsIndent
  | documentMarkInScalar
  | unclosedQuote
  | invalidEscape
  | ambiguousColon
  | invalidBlockHeader
  | invalidAnchor
  | invalidTag
  | invalidDirective
  | missingDocumentStart
  | missingContent
  | missingEntry
  | missingKey
  | missingSeparator
  | secondDocument
  | unknownAnchor
  | selfReference
  | unusableTag
  | unusableKey
  | tooManyAliases
  | tooDeep
deriving DecidableEq, Repr

/-- The wording of a fault. -/
def YamlFault.message : YamlFault → String
  | .controlCharacter => "control characters are not allowed"
  | .strayCharacter => "found character that cannot start any token"
  | .missingColon => "could not find expected ':'"
  | .misplacedEntry => "block sequence entries are not allowed in this context"
  | .misplacedKey => "mapping keys are not allowed in this context"
  | .misplacedValue => "mapping values are not allowed in this context"
  | .tabAsIndent => "found a tab character that violates indentation"
  | .documentMarkInScalar => "found unexpected document indicator"
  | .unclosedQuote => "found unexpected end of stream"
  | .invalidEscape => "found unknown escape character"
  | .ambiguousColon => "found unexpected ':'"
  | .invalidBlockHeader => "did not find expected comment or line break"
  | .invalidAnchor => "did not find expected alphabetic or numeric character"
  | .invalidTag => "did not find expected tag"
  | .invalidDirective => "found an invalid directive"
  | .missingDocumentStart => "did not find expected <document start>"
  | .missingContent => "did not find expected node content"
  | .missingEntry => "did not find expected '-' indicator"
  | .missingKey => "did not find expected key"
  | .missingSeparator => "did not find expected ',' or the closing bracket"
  | .secondDocument => "found more than one document"
  | .unknownAnchor => "unknown anchor"
  | .selfReference => "a node contains itself"
  | .unusableTag => "the tag has no meaning here"
  | .unusableKey => "a key is not a scalar"
  | .tooManyAliases => "aliases repeat too much"
  | .tooDeep => "recursion limit exceeded"

end CallChain
