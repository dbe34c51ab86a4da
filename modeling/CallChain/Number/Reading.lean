import CallChain.Number.Shortest

/-!
# Reading digits and decimals

* `digitValue`, `hexValue?`, `digitsIn?`: digits in a base.
* `decimalParts?`: a decimal number as digits and a power of ten.
* `nearestFloat`: the machine number nearest to such a number.
-/

set_option autoImplicit false

namespace CallChain

/-- The value of a decimal digit. -/
def digitValue (c : Char) : Nat := c.toNat - '0'.toNat

/-- The value of a hexadecimal digit. -/
def hexValue? (c : Char) : Option Nat :=
  if c.isDigit then some (digitValue c)
  else if 'a' ≤ c ∧ c ≤ 'f' then some (c.toNat - 'a'.toNat + 10)
  else if 'A' ≤ c ∧ c ≤ 'F' then some (c.toNat - 'A'.toNat + 10)
  else none

/-- The value of digits in a base, all of which must be digits of it; none of no digits. -/
def digitsIn? (base : Nat) (cs : List Char) : Option Nat :=
  if cs.isEmpty then none
  else cs.foldl (fun total c =>
    match total, hexValue? c with
    | some n, some d => if d < base then some (n * base + d) else none
    | _, _ => none) (some 0)

/-- The parts of a decimal number without sign: its digits as one number and the power of ten of
the last one. There must be a digit before the exponent, and one in an exponent. -/
def decimalParts? (cs : List Char) : Option (Nat × Int) :=
  let whole := cs.takeWhile Char.isDigit
  let rest := cs.dropWhile Char.isDigit
  let (fraction, rest) : List Char × List Char :=
    match rest with
    | '.' :: more => (more.takeWhile Char.isDigit, more.dropWhile Char.isDigit)
    | _ => ([], rest)
  if whole.isEmpty && fraction.isEmpty then none else
  let value : Nat := (whole ++ fraction).foldl (fun n d => n * 10 + digitValue d) 0
  let exponent? : Option Int :=
    match rest with
    | [] => some 0
    | letter :: more =>
      if letter = 'e' || letter = 'E' then
        match more with
        | '-' :: ds => (digitsIn? 10 ds).map (fun n => -(n : Int))
        | '+' :: ds => (digitsIn? 10 ds).map Int.ofNat
        | ds => (digitsIn? 10 ds).map Int.ofNat
      else none
  exponent?.map (fun e => (value, e - fraction.length))

/-- **The machine number nearest to `digits * 10 ^ exponent`**; what is far beyond the range of
doubles is not worked out. -/
def nearestFloat (digits : Nat) (exponent : Int) : Float :=
  if digits = 0 then 0
  else
    let places : Int := digitCount digits + exponent
    if places > 310 then 1 / 0
    else if places < -330 then 0
    else
      match exponent with
      | .ofNat k => Float.ofScientific digits false k
      | .negSucc k => Float.ofScientific digits true (k + 1)

end CallChain
