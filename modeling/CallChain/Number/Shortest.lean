import CallChain.Number.Double

/-!
# The fewest digits that read back

A double stands for every real number that rounds to it. `Double.shortest` is the decimal with
the fewest digits among those, and of several the one nearest to the double.

Digit counts are tried in increasing order. On the grid of decimals with a given number of
digits only the two neighbours of the value matter: if any point of the grid lies in the
interval, one of these does.

* `Decimal`: a natural number of digits and a power of ten.
* `Double.interval`: the reals that round to a double, as integers on a common scale.
* `Double.shortest`: the decimal of a double that is not zero.
-/

set_option autoImplicit false

namespace CallChain

/-- The number `digits * 10 ^ exponent`. -/
structure Decimal where
  /-- The digits, read as one number. -/
  digits : Nat
  /-- The power of ten of the last digit. -/
  exponent : Int
deriving DecidableEq, Repr

/-- How many decimal digits a number has; zero has none. -/
def digitCount (n : Nat) : Nat :=
  if h : n = 0 then 0 else digitCount (n / 10) + 1
termination_by n
decreasing_by omega

/-- **The reals that round to a double**, on a scale on which its value and both ends are whole. -/
structure RoundingInterval where
  /-- The value itself. -/
  value : Nat
  /-- The lower end. -/
  low : Nat
  /-- The upper end. -/
  high : Nat
  /-- What one unit of the number is on this scale. -/
  unit : Nat
  /-- Whether the ends round to the value too. -/
  closed : Bool

namespace RoundingInterval

/-- Whether the number `n / d` rounds to the value. -/
def contains (r : RoundingInterval) (n d : Nat) : Bool :=
  let x := n * r.unit
  if r.closed then r.low * d ≤ x && x ≤ r.high * d else r.low * d < x && x < r.high * d

/-- The power of ten at or below the value: the place of its leading digit. -/
def leadingPlace (r : RoundingInterval) : Int :=
  let guess : Int := (digitCount r.value : Int) - digitCount r.unit
  let reached : Bool :=
    match guess with
    | .ofNat k => r.unit * Nat.pow 10 k ≤ r.value
    | .negSucc k => r.unit ≤ r.value * Nat.pow 10 (k + 1)
  if reached then guess else guess - 1

/-- The better neighbour of the value on the grid of multiples of `10 ^ place`, if one of the two
rounds to it. A value exactly between two usable neighbours takes the even one. -/
def onGrid (r : RoundingInterval) (place : Int) : Option Decimal :=
  let (gn, gd) : Nat × Nat :=
    match place with
    | .ofNat k => (Nat.pow 10 k, 1)
    | .negSucc k => (1, Nat.pow 10 (k + 1))
  let below := r.value * gd / (r.unit * gn)
  let rest := r.value * gd % (r.unit * gn)
  let usable (q : Nat) : Bool := r.contains (q * gn) gd
  let nearer : Nat :=
    if 2 * rest < r.unit * gn then below
    else if 2 * rest > r.unit * gn then below + 1
    else if below % 2 = 0 then below else below + 1
  let farther : Nat := if nearer = below then below + 1 else below
  if usable nearer then some ⟨nearer, place⟩
  else if usable farther then some ⟨farther, place⟩
  else none

/-- The first grid with a usable point, from `count` digits downwards in place. -/
def search (r : RoundingInterval) (lead : Int) : Nat → Nat → Option Decimal
  | 0, _ => none
  | more + 1, count =>
    match r.onGrid (lead - count) with
    | some d => some d
    | none => search r lead more (count + 1)

end RoundingInterval

namespace Double

/-- **The interval of a double.** Half a unit in the last place on both sides, a quarter below a
power of two; the ends belong to it when the mantissa is even. -/
def interval (d : Double) : RoundingInterval :=
  let m := d.mantissa
  let narrow := d.fraction == 0 && d.exponentField > 1
  let (scale, unit) : Nat × Nat :=
    match d.exponent with
    | .ofNat k => (Nat.pow 2 k, 4)
    | .negSucc k => (1, 4 * Nat.pow 2 (k + 1))
  { value := 4 * m * scale
    low := (4 * m - (if narrow then 1 else 2)) * scale
    high := (4 * m + 2) * scale
    unit := unit
    closed := m % 2 == 0 }

/-- A decimal without zeros at its end. -/
def trimmed (digits : Nat) (exponent : Int) : Nat → Decimal
  | 0 => ⟨digits, exponent⟩
  | n + 1 =>
    if digits % 10 = 0 && digits ≠ 0 then
      trimmed (digits / 10) (exponent + 1) n
    else ⟨digits, exponent⟩

/-- **The shortest decimal that reads back as the magnitude of a double**; seventeen digits are
always enough. -/
def shortest (d : Double) : Decimal :=
  let r := d.interval
  match r.search r.leadingPlace 17 0 with
  | some found => trimmed found.digits found.exponent 20
  | none => ⟨0, 0⟩

end Double

end CallChain
