import CallChain.Number.Layout

/-!
# JSON numbers

A JSON number is a whole number or a double, and the two stay apart: `1` and `1.0` are different
values with different texts, although they have the same magnitude.

* `Number.same`: the same number, of the same sort.
* `Number.agree`: equality after rounding to a double; the sort does not matter.
* `Number.compare`: the exact order of magnitudes.
-/

set_option autoImplicit false

namespace CallChain

/-- **A JSON number**, with whole numbers and doubles kept apart. Texts only bring whole numbers
from `-2 ^ 63` to `2 ^ 64 - 1`; a literal beyond them is read as a double. -/
inductive Number where
  | int (value : Int)
  | double (value : Double)
deriving DecidableEq, Inhabited

namespace Number

/-- Equality of JSON numbers: same sort and same value. -/
def same : Number → Number → Bool
  | .int a, .int b => a == b
  | .double a, .double b => a.sameValue b
  | _, _ => false

@[simp] theorem same_refl (n : Number) : n.same n = true := by
  cases n <;> simp [same]

/-- The double next to a number. -/
def toDouble : Number → Double
  | .int i => .ofInt i
  | .double d => d

/-- The machine number next to a number. -/
def toFloat (n : Number) : Float := n.toDouble.toFloat

/-- Two numbers agree when they round to the same double. -/
def agree (a b : Number) : Bool := a.toDouble.sameValue b.toDouble

@[simp] theorem agree_refl (n : Number) : n.agree n = true := by
  simp [agree]

/-- The exact value as `m * 2 ^ e`. -/
def scaled : Number → Int × Int
  | .int i => (i, 0)
  | .double d => (d.signed, d.exponent)

/-- **The exact order of two numbers**: both are brought to the smaller power of two. -/
def compare (a b : Number) : Ordering :=
  let (m, e) := a.scaled
  let (n, f) := b.scaled
  let low := min e f
  Ord.compare (m * Nat.pow 2 (e - low).toNat) (n * Nat.pow 2 (f - low).toNat)

/-- Whether a number has no fraction, whatever its sort: `2.0` is whole. -/
def isWhole : Number → Bool
  | .int _ => true
  | .double d => d.isWhole

/-- A number without its fraction. -/
def truncate : Number → Int
  | .int i => i
  | .double d => d.truncate

/-- The text of a number in a JSON text. -/
def text : Number → String
  | .int i => toString i
  | .double d => Layout.json.write d

end Number

end CallChain
