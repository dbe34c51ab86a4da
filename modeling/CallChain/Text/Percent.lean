/-!
# Percent encoding

Characters that a place does not admit are written as the bytes of their UTF-8 form, each as `%`
and two hexadecimal digits in upper case.

* `percentByte`, `percentChar`: one byte and one character.
* `percentEncode`: a text, given the characters that stay as they are.
* `isUnreserved`: the characters that stay everywhere in a web address.
-/

set_option autoImplicit false

namespace CallChain.Text

/-- A hexadecimal digit in upper case. -/
def upperHexDigit (n : Nat) : Char := if n < 10 then Char.ofNat (48 + n) else Char.ofNat (55 + n)

/-- A byte as `%` and two digits. -/
def percentByte (b : UInt8) : List Char :=
  ['%', upperHexDigit (b.toNat / 16), upperHexDigit (b.toNat % 16)]

/-- A character, as it is or byte by byte. -/
def percentChar (kept : Char → Bool) (c : Char) : List Char :=
  if kept c then [c] else (String.utf8EncodeChar c).flatMap percentByte

/-- **A text in percent encoding.** -/
def percentEncode (kept : Char → Bool) (text : List Char) : List Char :=
  text.flatMap (percentChar kept)

/-- Letters and digits, `-`, `_`, `.` and `~`. -/
def isUnreserved (c : Char) : Bool :=
  c.isAlphanum || c = '-' || c = '_' || c = '.' || c = '~'

end CallChain.Text
