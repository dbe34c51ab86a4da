import CallChain.Predicate.Value
import CallChain.Number.Arithmetic
import CallChain.Text.Blank
import CallChain.Text.Casing

/-!
# Functions of predicates

Every function takes one value; several arguments come as a tuple.

* `Value.toNumber`, `Value.toInt`, `Value.toTuple`, …: what a function expects.
* `function?`: the function of a name.
-/

set_option autoImplicit false

namespace CallChain.Predicate

/-- **What a function does** with its argument. -/
abbrev Function := Value → Except Fault Value

/-! ### Expectations -/

namespace Value

/-- A number as a machine number. -/
def toNumber : Value → Except Fault Float
  | .float x => .ok x
  | .int i => .ok (Float.ofInt i)
  | v => .error (.expectedNumber v)

/-- A whole number. -/
def toInt : Value → Except Fault Int
  | .int i => .ok i
  | v => .error (.expectedInt v)

/-- A truth value. -/
def toBool : Value → Except Fault Bool
  | .bool b => .ok b
  | v => .error (.expectedBoolean v)

/-- A string. -/
def toText : Value → Except Fault String
  | .string s => .ok s
  | v => .error (.expectedString v)

/-- A tuple. -/
def toTuple : Value → Except Fault (List Value)
  | .tuple items => .ok items
  | v => .error (.expectedTuple v)

/-- A tuple of two. -/
def toPair (v : Value) : Except Fault (Value × Value) := do
  match ← v.toTuple with
  | [a, b] => return (a, b)
  | _ => throw (.expectedTupleOf 2 v)

/-- Whether a value is a string, a number or a truth value. -/
def isScalar (v : Value) : Bool := v.sort ∉ [.tuple, .empty]

end Value

/-! ### Kinds of functions -/

/-- A function of one number. -/
def onNumber (f : Float → Float) : Function := fun v => do return .float (f (← v.toNumber))

/-- A question about one number. -/
def askNumber (f : Float → Bool) : Function := fun v => do return .bool (f (← v.toNumber))

/-- A function of two numbers. -/
def onNumbers (f : Float → Float → Float) : Function := fun v => do
  let (a, b) ← v.toPair
  let x ← a.toNumber
  let y ← b.toNumber
  return .float (f x y)

/-- A function of two whole numbers. -/
def onInts (f : Int → Int → Int) : Function := fun v => do
  let (a, b) ← v.toPair
  let x ← a.toInt
  let y ← b.toInt
  return .int (f x y)

/-- A function of a string. -/
def onText (f : String → String) : Function := fun v => do return .string (f (← v.toText))

/-! ### Single functions -/

/-- Bytes of a string or elements of a tuple. -/
def length : Function
  | .string s => .ok (.int s.utf8ByteSize)
  | .tuple items => .ok (.int items.length)
  | v => .error (.expectedOneOf [.string, .tuple] v)

/-- The distance from zero; a whole number stays one. -/
def magnitude : Function
  | .float x => .ok (.float x.abs)
  | .int i =>
    match withinWord i.natAbs with
    | some n => .ok (.int n)
    | none => .error (.noNegation i)
  | v => .error (.expectedNumber v)

/-- The extreme machine number and the extreme whole number of a list. -/
def extremes (floats : Float → Float → Float) (ints : Int → Int → Int) :
    Float → Int → List Value → Except Fault (Float × Int)
  | x, i, [] => .ok (x, i)
  | x, i, .float y :: rest => extremes floats ints (floats x y) i rest
  | x, i, .int j :: rest => extremes floats ints x (ints i j) rest
  | _, _, v :: _ => .error (.expectedNumber v)

/-- The smaller of two machine numbers; NaN gives way. -/
def lesser (x y : Float) : Float := if x.isNaN || y < x then y else x

/-- The greater of two machine numbers; NaN gives way. -/
def larger (x y : Float) : Float := if x.isNaN || x < y then y else x

/-- The least number of a tuple: a whole one only if it is less than all machine numbers. -/
def least : Function := fun v => do
  let (x, i) ← extremes lesser min (1 / 0) (Nat.pow 2 63 - 1) (← v.toTuple)
  return if Float.ofInt i < x then .int i else .float x

/-- The greatest number of a tuple: a whole one only if it is greater than all machine numbers. -/
def greatest : Function := fun v => do
  let (x, i) ← extremes larger max (-1 / 0) (-Nat.pow 2 63) (← v.toTuple)
  return if x < Float.ofInt i then .int i else .float x

/-- The second or the third of three values, as the first says; all three are there already. -/
def choose : Function := fun v => do
  match ← v.toTuple with
  | [condition, a, b] => return if ← condition.toBool then a else b
  | _ => throw (.expectedTupleOf 3 v)

/-- The sorts of values that can be looked for. -/
def scalarSorts : List ValueSort := [.string, .int, .float, .bool]

/-- Whether a tuple contains a scalar. -/
def holds : Function := fun v => do
  let (a, b) ← v.toPair
  let items ← a.toTuple
  if b.isScalar then return .bool (items.any (·.same b))
  else throw (.expectedOneOf scalarSorts b)

/-- Whether one of several scalars is in a tuple; the first that is ends the search. -/
def holdsOneOf (items : List Value) : List Value → Except Fault Bool
  | [] => .ok false
  | b :: rest =>
    if !b.isScalar then .error (.expectedOneOf scalarSorts b)
    else if items.any (·.same b) then .ok true
    else holdsOneOf items rest

/-- Whether a tuple contains one of the scalars of another. -/
def holdsAny : Function := fun v => do
  let (a, b) ← v.toPair
  let items ← a.toTuple
  let wanted ← b.toTuple
  return .bool (← holdsOneOf items wanted)

/-- The name of a sort, as a value. -/
def sortName (v : Value) : Value :=
  .string (match v.sort with
    | .string => "string"
    | .float => "float"
    | .int => "int"
    | .bool => "boolean"
    | .tuple => "tuple"
    | .empty => "empty")

/-- The characters between two bytes; both must lie on borders of characters. -/
def between (start stop : Nat) : Nat → List Char → Option (List Char)
  | position, [] => if position = start ∨ start < position then some [] else none
  | position, c :: rest =>
    let next := position + c.utf8Size
    if position < start then
      if start < next then none else between start stop next rest
    else if stop ≤ position then if stop = position then some [] else none
    else if stop < next then none
    else (between start stop next rest).map (c :: ·)

/-- A position in a string. -/
def position (v : Value) : Except Fault Nat := do
  match ← v.toInt with
  | .ofNat n => return n
  | .negSucc _ => throw .outOfBounds

/-- A part of a string, from one byte to another or to the end. -/
def substring : Function := fun v => do
  let arguments ← v.toTuple
  match arguments with
  | s :: start :: rest =>
    if 1 < rest.length then throw (.expectedTupleWithin 2 3 v)
    let text ← s.toText
    let start ← position start
    let stop ← match rest with
      | stop :: _ => position stop
      | [] => pure text.utf8ByteSize
    if stop < start || text.utf8ByteSize < stop then throw .outOfBounds
    match between start stop 0 text.toList with
    | some cs => return .string (String.ofList cs)
    | none => throw .outOfBounds
  | _ => throw (.expectedTupleWithin 2 3 v)

/-! ### The library -/

/-- Combines the bits of two whole numbers. -/
def bitwise (f : Int64 → Int64 → Int64) (a b : Int) : Int :=
  (f (Int64.ofInt a) (Int64.ofInt b)).toInt

/-- The functions on numbers. -/
def numberFunctions : List (String × Function) := [
  ("math::ln", onNumber Float.log),
  ("math::log", onNumbers (fun x base => x.log / base.log)),
  ("math::log2", onNumber Float.log2),
  ("math::log10", onNumber Float.log10),
  ("math::exp", onNumber Float.exp),
  ("math::exp2", onNumber Float.exp2),
  ("math::pow", onNumbers Float.pow),
  ("math::cos", onNumber Float.cos),
  ("math::acos", onNumber Float.acos),
  ("math::cosh", onNumber Float.cosh),
  ("math::acosh", onNumber Float.acosh),
  ("math::sin", onNumber Float.sin),
  ("math::asin", onNumber Float.asin),
  ("math::sinh", onNumber Float.sinh),
  ("math::asinh", onNumber Float.asinh),
  ("math::tan", onNumber Float.tan),
  ("math::atan", onNumber Float.atan),
  ("math::tanh", onNumber Float.tanh),
  ("math::atanh", onNumber Float.atanh),
  ("math::atan2", onNumbers Float.atan2),
  ("math::sqrt", onNumber Float.sqrt),
  ("math::cbrt", onNumber Float.cbrt),
  ("math::hypot", onNumbers hypotenuse),
  ("math::abs", magnitude),
  ("math::is_nan", askNumber Float.isNaN),
  ("math::is_finite", askNumber Float.isFinite),
  ("math::is_infinite", askNumber Float.isInf),
  ("math::is_normal", askNumber isNormalFloat),
  ("floor", onNumber Float.floor),
  ("round", onNumber Float.round),
  ("ceil", onNumber Float.ceil),
  ("min", least),
  ("max", greatest),
  ("bitand", onInts (bitwise (· &&& ·))),
  ("bitor", onInts (bitwise (· ||| ·))),
  ("bitxor", onInts (bitwise (· ^^^ ·))),
  ("bitnot", fun v => do return .int (-1 - (← v.toInt))),
  ("shl", onInts shiftLeft),
  ("shr", onInts shiftRight)]

/-- The functions on other values. -/
def otherFunctions : List (String × Function) := [
  ("typeof", fun v => .ok (sortName v)),
  ("if", choose),
  ("contains", holds),
  ("contains_any", holdsAny),
  ("len", length),
  ("str::to_lowercase", onText Text.lower),
  ("str::to_uppercase", onText Text.upper),
  ("str::trim", onText Text.trim),
  ("str::from", fun v => .ok (.string v.plain)),
  ("str::substring", substring)]

/-- **The function of a name.** -/
def function? (name : String) : Option Function :=
  match numberFunctions.lookup name with
  | some f => some f
  | none => otherFunctions.lookup name

end CallChain.Predicate
