import CallChain.Number.Reading
import CallChain.Text.Percent
import Mathlib.Data.List.Basic

/-!
# Percent encoding can be undone

A text in percent encoding consists of unreserved characters, `%` and hexadecimal digits, so that no
delimiter of a web address or of a template comes out of it
(`CallChain.Text.isEncoded_of_mem_percentEncode`). It tells all of the text: reading the digits back
gives the bytes of its UTF-8 form (`CallChain.Text.percentBytes_percentEncode`), and these tell the
characters (`CallChain.Text.percentEncode_injective`).
-/

set_option autoImplicit false

namespace CallChain.Text

/-! ### What comes out -/

/-- **The characters of an encoded text**: those that are kept, `%` and hexadecimal digits. -/
def isEncoded (c : Char) : Bool := isUnreserved c || c == '%'

theorem isUnreserved_upperHexDigit : ∀ n < 16, isUnreserved (upperHexDigit n) = true := by decide

theorem isEncoded_of_mem_percentByte {b : UInt8} {c : Char} (h : c ∈ percentByte b) :
    isEncoded c = true := by
  have hhigh := isUnreserved_upperHexDigit (b.toNat / 16) (by have := b.toNat_lt; omega)
  have hlow := isUnreserved_upperHexDigit (b.toNat % 16) (by omega)
  simp only [percentByte, List.mem_cons, List.not_mem_nil, or_false] at h
  rcases h with rfl | rfl | rfl
  · rfl
  · rw [isEncoded, hhigh, Bool.true_or]
  · rw [isEncoded, hlow, Bool.true_or]

/-- **Nothing else comes out of an encoding.** -/
theorem isEncoded_of_mem_percentEncode {text : List Char} {c : Char}
    (h : c ∈ percentEncode isUnreserved text) : isEncoded c = true := by
  obtain ⟨d, -, hd⟩ := List.mem_flatMap.mp h
  rw [percentChar] at hd
  split at hd
  · rename_i hkept
    rw [List.mem_singleton.mp hd, isEncoded, hkept, Bool.true_or]
  · obtain ⟨b, -, hb⟩ := List.mem_flatMap.mp hd
    exact isEncoded_of_mem_percentByte hb

/-! ### Reading it back -/

/-- **The bytes that an encoded text stands for**: `%` with two digits is one byte, any other
character its own bytes. -/
def percentBytes : List Char → List UInt8
  | [] => []
  | '%' :: high :: low :: rest =>
    UInt8.ofNat ((hexValue? high).getD 0 * 16 + (hexValue? low).getD 0) :: percentBytes rest
  | c :: rest => String.utf8EncodeChar c ++ percentBytes rest

theorem hexValue?_upperHexDigit : ∀ n < 16, hexValue? (upperHexDigit n) = some n := by decide

theorem percentBytes_percentByte (b : UInt8) (rest : List Char) :
    percentBytes (percentByte b ++ rest) = b :: percentBytes rest := by
  have hhigh := hexValue?_upperHexDigit (b.toNat / 16) (by have := b.toNat_lt; omega)
  have hlow := hexValue?_upperHexDigit (b.toNat % 16) (by omega)
  have hbyte : b.toNat / 16 * 16 + b.toNat % 16 = b.toNat := by omega
  change percentBytes
    ('%' :: upperHexDigit (b.toNat / 16) :: upperHexDigit (b.toNat % 16) :: rest) = _
  rw [percentBytes, hhigh, hlow, Option.getD_some, Option.getD_some, hbyte, UInt8.ofNat_toNat]

theorem percentBytes_percentChar (c : Char) (rest : List Char) :
    percentBytes (percentChar isUnreserved c ++ rest) =
      String.utf8EncodeChar c ++ percentBytes rest := by
  rw [percentChar]
  split
  · rename_i hkept
    have hc : c ≠ '%' := by
      rintro rfl
      revert hkept
      decide
    rw [List.singleton_append, percentBytes]
    exact fun _ _ _ h _ => hc h
  · -- The bytes follow one another.
    induction String.utf8EncodeChar c with
    | nil => rfl
    | cons b bytes ih =>
      rw [List.flatMap_cons, List.append_assoc, percentBytes_percentByte, ih, List.cons_append]

/-- **An encoded text is read back** as its bytes. -/
theorem percentBytes_percentEncode (text : List Char) :
    percentBytes (percentEncode isUnreserved text) = text.flatMap String.utf8EncodeChar := by
  induction text with
  | nil => rfl
  | cons c rest ih =>
    rw [percentEncode, List.flatMap_cons, percentBytes_percentChar, List.flatMap_cons, ← ih]
    rfl

/-- The bytes of a text tell its characters. -/
theorem flatMap_utf8EncodeChar_injective :
    Function.Injective (List.flatMap String.utf8EncodeChar) := by
  intro a b h
  have hbytes : a.utf8Encode = b.utf8Encode := congrArg List.toByteArray h
  have harray : some a.toArray = some b.toArray := by
    rw [← List.utf8Decode?_utf8Encode, ← List.utf8Decode?_utf8Encode, hbytes]
  simpa using harray

/-- **Different texts have different encodings.** -/
theorem percentEncode_injective : Function.Injective (percentEncode isUnreserved) := by
  intro a b h
  apply flatMap_utf8EncodeChar_injective
  rw [← percentBytes_percentEncode, ← percentBytes_percentEncode, h]

end CallChain.Text
