/-!
# Finite doubles

A `Double` is a finite binary64 number, kept as its 64 bits together with the fact that its
exponent field is not the one of infinities and NaN. Everything said about its value is said in
exact integer arithmetic.

* `Double.mantissa`, `Double.exponent`: the magnitude is `mantissa * 2 ^ exponent`.
* `Double.sameValue`: equality of values, under which the two zeros agree
  (`Double.sameValue_refl`, `Double.sameValue_symm`).
* `Double.ofFloat?`, `Double.toFloat`: the way to and from machine arithmetic.
-/

set_option autoImplicit false

namespace CallChain

/-- **A finite binary64 number**, kept as its bits. -/
structure Double where
  /-- Sign, eleven bits of exponent, fifty-two bits of fraction. -/
  bits : UInt64
  /-- Neither an infinity nor NaN. -/
  finite : (bits >>> 52) &&& 0x7ff ≠ 0x7ff
deriving DecidableEq

namespace Double

/-- Positive zero. -/
def zero : Double := ⟨0, by decide⟩

instance : Inhabited Double := ⟨zero⟩

/-- Whether the sign bit is set; negative zero is negative here. -/
def negative (d : Double) : Bool := d.bits >>> 63 == 1

/-- The eleven bits of the exponent as a number. -/
def exponentField (d : Double) : Nat := ((d.bits >>> 52) &&& 0x7ff).toNat

/-- The fifty-two bits of the fraction as a number. -/
def fraction (d : Double) : Nat := (d.bits &&& 0xfffffffffffff).toNat

/-- The integer `m` of the magnitude `m * 2 ^ e`; normal numbers carry a hidden leading bit. -/
def mantissa (d : Double) : Nat :=
  if d.exponentField = 0 then d.fraction else d.fraction + Nat.pow 2 52

/-- The exponent `e` of the magnitude `m * 2 ^ e`. -/
def exponent (d : Double) : Int :=
  if d.exponentField = 0 then -1074 else (d.exponentField : Int) - 1075

/-- The mantissa with its sign. -/
def signed (d : Double) : Int := if d.negative then -(d.mantissa : Int) else d.mantissa

/-- Either of the two zeros. -/
def isZero (d : Double) : Bool := d.mantissa == 0

/-- Equality of values: equal bits, or two zeros. -/
def sameValue (a b : Double) : Bool := decide (a = b) || (a.isZero && b.isZero)

@[simp] theorem sameValue_refl (a : Double) : a.sameValue a = true := by
  simp [sameValue]

theorem sameValue_symm (a b : Double) : a.sameValue b = b.sameValue a := by
  simp only [sameValue, Bool.and_comm a.isZero, eq_comm (a := a)]

/-- Whether the value is a whole number. -/
def isWhole (d : Double) : Bool :=
  match d.exponent with
  | .ofNat _ => true
  | .negSucc k => d.mantissa % Nat.pow 2 (k + 1) == 0

/-- The whole part of the value, the fraction dropped. -/
def truncate (d : Double) : Int :=
  let magnitude : Nat :=
    match d.exponent with
    | .ofNat k => d.mantissa * Nat.pow 2 k
    | .negSucc k => d.mantissa / Nat.pow 2 (k + 1)
  if d.negative then -(magnitude : Int) else magnitude

/-- The machine number with these bits. -/
def toFloat (d : Double) : Float := Float.ofBits d.bits

/-- The finite machine numbers; infinities and NaN have no `Double`. -/
def ofFloat? (x : Float) : Option Double :=
  if h : (x.toBits >>> 52) &&& 0x7ff ≠ 0x7ff then some ⟨x.toBits, h⟩ else none

/-- The value with the other sign. -/
def negate (d : Double) : Double := (ofFloat? (-d.toFloat)).getD d

/-- The double next to a whole number that fits sixty-four bits; what lies beyond the range of
doubles has none and reads as zero. -/
def ofInt (i : Int) : Double := (ofFloat? (Float.ofInt i)).getD zero

end Double

end CallChain
