import CallChain.Json.Text

/-!
# Universally unique ids

A hundred and twenty-eight bits, written as thirty-two hexadecimal digits in groups of eight,
four, four, four and twelve. Reading also takes the digits without hyphens, braces around the
grouped form, and the prefix `urn:uuid:` before it.

* `Uuid`: an id by its digits, in lower case.
* `Uuid.ofRandom`: an id of random bits.
* `Uuid.text`: the written form.
* `Uuid.parse`, `UuidError`.
-/

set_option autoImplicit false

namespace CallChain

/-- Whether a character is a hexadecimal digit in lower case. -/
def isLowerHex (c : Char) : Bool := c.isDigit || ('a' ≤ c && c ≤ 'f')

/-- Whether a character is a hexadecimal digit. -/
def isHex (c : Char) : Bool := isLowerHex c || ('A' ≤ c && c ≤ 'F')

/-- **An id**, as its thirty-two digits. -/
structure Uuid where
  digits : List Char
  valid : digits.length = 32 ∧ digits.all isLowerHex = true
deriving DecidableEq

namespace Uuid

/-- The id whose digits are all zero. -/
def nil : Uuid := ⟨List.replicate 32 '0', by decide⟩

instance : Inhabited Uuid := ⟨nil⟩

/-- A hexadecimal digit in lower case. -/
def digit (n : Fin 16) : Char := Char.ofNat (if n.val < 10 then 48 + n.val else 87 + n.val)

theorem isLowerHex_digit : ∀ n : Fin 16, isLowerHex (digit n) = true := by decide

/-- **An id of random bits**, of the fourth version: the digits that say so are fixed, the others
are those of a number, the last one first. -/
def ofRandom (bits : Nat) : Uuid where
  digits := List.ofFn (fun i : Fin 32 =>
    let nibble := bits / Nat.pow 16 i.val % 16
    digit (Fin.ofNat 16 (if i.val = 12 then 4 else if i.val = 16 then 8 + nibble % 4 else nibble)))
  valid := by
    refine ⟨List.length_ofFn, ?_⟩
    simp only [List.all_eq_true, List.mem_ofFn]
    rintro c ⟨i, rfl⟩
    exact isLowerHex_digit _

/-- Digits in groups. -/
def grouped (ds : List Char) : List Char :=
  ds.take 8 ++ '-' :: (ds.drop 8).take 4 ++ '-' :: (ds.drop 12).take 4
    ++ '-' :: (ds.drop 16).take 4 ++ '-' :: ds.drop 20

/-- The written form of an id. -/
def text (u : Uuid) : String := String.ofList (grouped u.digits)

/-! ### Reading -/

end Uuid

/-- **What is wrong with the text of an id.** -/
inductive UuidError where
  | badCharacter (found : Char) (position : Nat)
  | badLength (length : Nat)
  | groupCount (count : Nat)
  | groupLength (group length : Nat)
deriving DecidableEq, Repr

/-- The lengths of the groups. -/
def Uuid.groupLengths : List Nat := [8, 4, 4, 4, 12]

/-- The wording of an error. -/
def UuidError.message : UuidError → String
  | .badCharacter c position =>
    "UUID parsing failed: invalid character: found `" ++ String.singleton c ++ "` at "
      ++ toString position
  | .badLength length => "UUID parsing failed: invalid length: found " ++ toString length
  | .groupCount count =>
    "UUID parsing failed: invalid group count: expected 5, found " ++ toString count
  | .groupLength group length =>
    "UUID parsing failed: invalid group length in group " ++ toString group ++ ": expected "
      ++ toString (Uuid.groupLengths[group]?.getD 0) ++ ", found " ++ toString length

namespace Uuid

/-- The id of digits in any case. -/
def ofDigits? (cs : List Char) : Option Uuid :=
  let ds := cs.map Char.toLower
  if h : ds.length = 32 ∧ ds.all isLowerHex = true then some ⟨ds, h⟩ else none

/-- The id of a grouped form. -/
def ofGrouped? (cs : List Char) : Option Uuid :=
  let ds := cs.filter (· != '-')
  if ds.all isHex && grouped ds = cs then ofDigits? ds else none

/-- A form without what may stand around it, how many bytes stand before it, and whether nothing
does. -/
def bare (cs : List Char) : List Char × Nat × Bool :=
  if cs.head? = some '\x7b' && 1 < cs.length && cs.getLast? = some '\x7d' then
    (cs.drop 1 |>.dropLast, 1, false)
  else if "urn:uuid:".toList.isPrefixOf cs then (cs.drop 9, 9, false)
  else (cs, 0, true)

/-- The first character that is neither a digit nor a hyphen, with the bytes before it. -/
def stray : Nat → List Char → Option (Char × Nat)
  | _, [] => none
  | i, c :: rest => if isHex c || c = '-' then stray (i + c.utf8Size) rest else some (c, i)

/-- The lengths of the runs between hyphens. -/
def runLengths (cs : List Char) : List Nat :=
  ((String.ofList cs).splitOn "-").map String.length

/-- The number of the first group among the first four that has the wrong length. -/
def wrongGroup : Nat → List Nat → List Nat → Option (Nat × Nat)
  | i, found :: more, expected :: rest =>
    if i = 4 then none
    else if found = expected then wrongGroup (i + 1) more rest else some (i, found)
  | _, _, _ => none

/-- What is wrong with a text that is no id: first a stray character, then the number of groups,
then the length of a group. -/
def diagnose (cs : List Char) : UuidError :=
  let (body, offset, plain) := bare cs
  match stray 0 body with
  | some (c, i) => .badCharacter c (i + offset)
  | none =>
    let lengths := runLengths body
    if lengths.length = 1 && plain then .badLength cs.length
    else if lengths.length ≠ 5 then .groupCount lengths.length
    else
      match wrongGroup 0 lengths groupLengths with
      | some (group, found) => .groupLength group found
      | none => .groupLength 4 (cs.length - 24)

/-- **The id of a text.** -/
def parse (text : String) : Except UuidError Uuid :=
  let cs := text.toList
  let (body, _, plain) := bare cs
  let found? : Option Uuid :=
    if plain && cs.length = 32 then ofDigits? cs
    else if body.length = 36 then ofGrouped? body
    else none
  match found? with
  | some u => .ok u
  | none => .error (diagnose cs)

end Uuid

end CallChain
