import CallChain.Number.Shortest

/-!
# How a decimal is written

The digits of a number and the way they are laid out are two decisions. A `Layout` is the second
one: which magnitudes are written positionally, whether whole numbers keep a `.0`, whether a
positive exponent has a sign.

* `Layout.json`: numbers in JSON texts.
* `Layout.debug`: numbers in the description of a value.
* `Layout.plain`: numbers as text, never with an exponent.
* `Layout.write`: the text of a double in a layout.
-/

set_option autoImplicit false

namespace CallChain

/-- **The layout of a written number.** A magnitude is measured by the place of its leading
digit: `0` for units, `2` for hundreds, `-1` for tenths. -/
structure Layout where
  /-- The least place that is still written positionally; none means all of them. -/
  from? : Option Int
  /-- The first place that is written with an exponent; none means no place is. -/
  until? : Option Int
  /-- Whether a whole number in positional notation ends in `.0`. -/
  pointZero : Bool
  /-- Whether a positive exponent has a `+`. -/
  plus : Bool

namespace Layout

/-- JSON texts write `0.00001` and `1000000000000000.0` positionally, `1e-6` and `1e+16` with an
exponent. -/
def json : Layout := ⟨some (-5), some 16, true, true⟩

/-- Descriptions of values write `0.0001` positionally, `1e-5` and `1e16` with an exponent. -/
def debug : Layout := ⟨some (-4), some 16, true, false⟩

/-- Plain text knows neither exponents nor `.0`. -/
def plain : Layout := ⟨none, none, false, false⟩

/-- Whether a number with this leading place is written positionally. -/
def positional (l : Layout) (place : Int) : Bool :=
  l.from?.all (· ≤ place) && l.until?.all (place < ·)

/-- The digits of a number, most significant first. -/
def digitsOf (n : Nat) : List Char := Nat.toDigits 10 n

/-- Positional notation of `digits * 10 ^ exponent`. -/
def position (l : Layout) (d : Decimal) : List Char :=
  let ds := digitsOf d.digits
  match d.exponent with
  | .ofNat k => ds ++ List.replicate k '0' ++ (if l.pointZero then ['.', '0'] else [])
  | .negSucc k =>
    let places := k + 1
    if places < ds.length then
      ds.take (ds.length - places) ++ '.' :: ds.drop (ds.length - places)
    else
      '0' :: '.' :: List.replicate (places - ds.length) '0' ++ ds

/-- Notation with an exponent; the leading digit has place `place`. -/
def scientific (l : Layout) (d : Decimal) (place : Int) : List Char :=
  let ds := digitsOf d.digits
  let head := ds.take 1
  let tail := ds.drop 1
  let sign : List Char := if place < 0 then ['-'] else if l.plus then ['+'] else []
  head ++ (if tail.isEmpty then [] else '.' :: tail) ++ 'e' :: sign ++ digitsOf place.natAbs

/-- The text of `digits * 10 ^ exponent`, which is not zero. -/
def magnitude (l : Layout) (d : Decimal) : List Char :=
  let place : Int := d.exponent + (digitsOf d.digits).length - 1
  if l.positional place then l.position d else l.scientific d place

/-- **The text of a double in a layout**; negative zero keeps its sign. -/
def write (l : Layout) (d : Double) : String :=
  let sign : List Char := if d.negative then ['-'] else []
  let zero : List Char := if l.pointZero then ['0', '.', '0'] else ['0']
  String.ofList (sign ++ (if d.isZero then zero else l.magnitude d.shortest))

/-- The text of a machine number; infinities and NaN have fixed spellings. -/
def writeFloat (l : Layout) (x : Float) : String :=
  match Double.ofFloat? x with
  | some d => l.write d
  | none => if x.isNaN then "NaN" else if x < 0 then "-inf" else "inf"

end Layout

end CallChain
