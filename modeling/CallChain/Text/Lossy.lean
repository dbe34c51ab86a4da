/-!
# Bytes as text

Bytes that are no UTF-8 still have a text: each longest run that could start a character and does
not finish one stands as one replacement character.

* `Text.utf8Lead?`: how a character that starts with a byte goes on.
* `Text.ofBytes`: the text of bytes.
-/

set_option autoImplicit false

namespace CallChain.Text

/-- The character that stands for bytes which are no character. -/
def replacement : Char := '\ufffd'

/-- How many bytes follow the first byte of a character, and between which bounds the first of
those lies. -/
def utf8Lead? (b : UInt8) : Option (Nat × UInt8 × UInt8) :=
  if 0xc2 ≤ b && b ≤ 0xdf then some (1, 0x80, 0xbf)
  else if b = 0xe0 then some (2, 0xa0, 0xbf)
  else if b = 0xed then some (2, 0x80, 0x9f)
  else if 0xe1 ≤ b && b ≤ 0xef then some (2, 0x80, 0xbf)
  else if b = 0xf0 then some (3, 0x90, 0xbf)
  else if 0xf1 ≤ b && b ≤ 0xf3 then some (3, 0x80, 0xbf)
  else if b = 0xf4 then some (3, 0x80, 0x8f)
  else none

/-- Whether a byte goes on with a character. -/
def isUtf8Tail (b : UInt8) : Bool := 0x80 ≤ b && b ≤ 0xbf

/-- The bytes, of at most so many, that go on with a character whose next byte lies between
bounds. -/
def utf8Tail (n : Nat) (low high : UInt8) : List UInt8 → List UInt8
  | [] => []
  | b :: rest =>
    if 0 < n && low ≤ b && b ≤ high then b :: (rest.takeWhile isUtf8Tail).take (n - 1) else []

/-- The number that the bytes of a character stand for. -/
def utf8Code (lead : UInt8) (tail : List UInt8) : Nat :=
  let start : Nat := match tail.length with
    | 1 => lead.toNat % 0x20
    | 2 => lead.toNat % 0x10
    | _ => lead.toNat % 0x08
  tail.foldl (fun n b => n * 0x40 + b.toNat % 0x40) start

/-- The characters of bytes. -/
def charsOfBytes : List UInt8 → List Char
  | [] => []
  | b :: rest =>
    if b < 0x80 then Char.ofNat b.toNat :: charsOfBytes rest
    else
      match utf8Lead? b with
      | none => replacement :: charsOfBytes rest
      | some (n, low, high) =>
        let tail := utf8Tail n low high rest
        let c := if tail.length = n then Char.ofNat (utf8Code b tail) else replacement
        c :: charsOfBytes (rest.drop tail.length)
termination_by bytes => bytes.length
decreasing_by
  all_goals simp only [List.length_drop, List.length_cons]
  all_goals omega

/-- **The text of bytes.** -/
def ofBytes (bytes : ByteArray) : String :=
  match String.fromUTF8? bytes with
  | some text => text
  | none => String.ofList (charsOfBytes bytes.toList)

end CallChain.Text
