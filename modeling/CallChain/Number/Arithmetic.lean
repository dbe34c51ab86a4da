import CallChain.Number.Double

/-!
# Arithmetic beyond the machine's own

* `floatRemainder`: the exact remainder of two machine numbers, with the sign of the first.
* `hypotenuse`: the length of a right triangle's long side.
* `isNormalFloat`: neither zero nor below the range of full precision.
* `withinWord`, `shiftLeft`, `shiftRight`: whole numbers of sixty-four bits with sign.
-/

set_option autoImplicit false

namespace CallChain

/-- A natural number times a power of two, for products that a machine number can hold. -/
def exactFloat (n : Nat) (exponent : Int) : Nat → Float
  | 0 => (Float.ofNat n).scaleB exponent
  | fuel + 1 =>
    if n ≠ 0 && n % 2 = 0 then exactFloat (n / 2) (exponent + 1) fuel
    else (Float.ofNat n).scaleB exponent

/-- **The exact remainder** after dividing toward zero; it has the sign of the dividend. -/
def floatRemainder (x y : Float) : Float :=
  match Double.ofFloat? x, Double.ofFloat? y with
  | some a, some b =>
    if b.isZero then 0 / 0
    else
      let low := min a.exponent b.exponent
      let m := a.mantissa * Nat.pow 2 (a.exponent - low).toNat
      let n := b.mantissa * Nat.pow 2 (b.exponent - low).toNat
      let r := exactFloat (m % n) low 4096
      if a.negative then -r else r
  | some _, none => if y.isNaN then y else x
  | none, _ => 0 / 0

/-- The long side of a right triangle. -/
def hypotenuse (x y : Float) : Float :=
  let a := x.abs
  let b := y.abs
  if a.isInf || b.isInf then 1 / 0
  else
    let square := a * a + b * b
    if square.isInf then
      let long := max a b
      let ratio := min a b / long
      long * (1 + ratio * ratio).sqrt
    else square.sqrt

/-- Whether a machine number has full precision. -/
def isNormalFloat (x : Float) : Bool :=
  match Double.ofFloat? x with
  | some d => d.exponentField ≠ 0
  | none => false

/-- A whole number, if sixty-four bits with sign hold it. -/
def withinWord (i : Int) : Option Int :=
  if -Nat.pow 2 63 ≤ i ∧ i < Nat.pow 2 63 then some i else none

/-- Shifts the bits of a whole number to the left; only the last six bits of the amount count. -/
def shiftLeft (i amount : Int) : Int := (i * Nat.pow 2 (amount % 64).toNat).bmod (Nat.pow 2 64)

/-- Shifts the bits of a whole number to the right, keeping its sign. -/
def shiftRight (i amount : Int) : Int := i / Nat.pow 2 (amount % 64).toNat

end CallChain
