import CallChain.Json
import CallChain.Predicate.Function
import CallChain.Predicate.Tree
import CallChain.Text.Letters

/-!
# Predicates

A predicate is an expression over the parts of a JSON value, which are bound to names.

* `flatten`: the parts without parts, with their names.
* `Bindings`, `bindings`: what names stand for.
* `evaluate`: the value of an expression.
-/

set_option autoImplicit false

namespace CallChain.Predicate

/-! ### Names -/

/-- The name of a key: what cannot stand in a name becomes `_`. -/
def variableName (key : String) : String :=
  String.ofList (key.toList.map (fun c => if Text.isLetterOrDigit c || c = '_' then c else '_'))

/-- A name below another one. -/
def below (outer inner : String) : String := if outer.isEmpty then inner else outer ++ "." ++ inner

mutual

/-- **The parts of a value that have no parts**, in order, each with its name: keys and positions
joined by dots. A value without parts is called `output`. -/
def flattenFrom (name : String) : Json → List (String × Json)
  | .obj members => flattenMembers name members
  | .arr items => flattenItems name 0 items
  | leaf => [(if name.isEmpty then "output" else name, leaf)]

/-- The parts of items, the first of which has the given position. -/
def flattenItems (name : String) : Nat → List Json → List (String × Json)
  | _, [] => []
  | i, j :: rest => flattenFrom (below name (toString i)) j ++ flattenItems name (i + 1) rest

/-- The parts of members. -/
def flattenMembers (name : String) : List (String × Json) → List (String × Json)
  | [] => []
  | (k, j) :: rest => flattenFrom (below name (variableName k)) j ++ flattenMembers name rest

end

/-- The parts of a value that have no parts, with their names. -/
def flatten (j : Json) : List (String × Json) := flattenFrom "" j

/-! ### Bindings -/

/-- What names stand for. -/
abbrev Bindings := List (String × Value)

/-- Binds a name. A name that is bound keeps the sort of its value: a value of another sort is
passed over. -/
def bind (name : String) (v : Value) : Bindings → Bindings
  | [] => [(name, v)]
  | (k, w) :: rest =>
    if k = name then (k, if v.sort = w.sort then v else w) :: rest else (k, w) :: bind name v rest

/-- The value that a part without parts stands for; null stands for none. -/
def leafValue? : Json → Option Value
  | .str s => some (.string s)
  | .bool b => some (.bool b)
  | .num (.int i) => some ((withinWord i).elim (.float (Float.ofInt i)) .int)
  | .num (.double d) => some (.float d.toFloat)
  | _ => none

/-- **The bindings for a value.** -/
def bindings (j : Json) : Bindings :=
  (flatten j).foldl (fun bound (name, leaf) =>
    match leafValue? leaf with
    | some v => bind name v bound
    | none => bound) []

/-! ### Evaluation -/

/-- The two arguments of an operator. -/
def two (arguments : List Value) : Except Fault (Value × Value) :=
  match arguments with
  | [a, b] => .ok (a, b)
  | other => .error (.argumentCount 2 other.length)

/-- The only argument of an operator. -/
def one (arguments : List Value) : Except Fault Value :=
  match arguments with
  | [a] => .ok a
  | other => .error (.argumentCount 1 other.length)

/-- Whole numbers are worked out exactly, and others in machine arithmetic. -/
def calculate (calculation : Calculation) (ints : Int → Int → Option Int)
    (floats : Float → Float → Float) (a b : Value) : Except Fault Value :=
  match a, b with
  | .int i, .int j =>
    match (ints i j).bind withinWord with
    | some k => .ok (.int k)
    | none => .error (.noResult calculation i j)
  | _, _ => do
    let x ← a.toNumber
    let y ← b.toNumber
    return .float (floats x y)

/-- A number or a string. -/
def numberOrString (v : Value) : Except Fault Unit :=
  if v.sort ∈ [.int, .float, .string] then .ok () else .error (.expectedNumberOrString v)

/-- The sum of numbers, or two strings joined. -/
def sum (a b : Value) : Except Fault Value := do
  numberOrString a
  numberOrString b
  match a, b with
  | .string s, .string t => return .string (s ++ t)
  | .string _, _ | _, .string _ => throw (.mixedAddition a.sort b.sort)
  | _, _ => calculate .adding (fun i j => some (i + j)) (· + ·) a b

/-- An order of two strings or of two numbers. -/
def compare (strings : String → String → Bool) (ints : Int → Int → Bool)
    (floats : Float → Float → Bool) (a b : Value) : Except Fault Value := do
  numberOrString a
  numberOrString b
  match a, b with
  | .string s, .string t => return .bool (strings s t)
  | .int i, .int j => return .bool (ints i j)
  | _, _ => do
    let x ← a.toNumber
    let y ← b.toNumber
    return .bool (floats x y)

/-- Division toward zero, where it has a result. -/
def quotient (f : Int → Int → Int) (i j : Int) : Option Int :=
  if j = 0 || (i = -Nat.pow 2 63 && j = -1) then none else some (f i j)

/-- A number with the other sign. -/
def opposite : Value → Except Fault Value
  | .int i =>
    match withinWord (-i) with
    | some j => .ok (.int j)
    | none => .error (.noNegation i)
  | v => do return .float (-(← v.toNumber))

/-- Calls a function. -/
def call (name : String) (argument : Value) : Except Fault Value :=
  match function? name with
  | some f => f argument
  | none => .error (.unboundFunction name)

/-- Looks a name up. -/
def look (bound : Bindings) (name : String) : Except Fault Value :=
  match bound.lookup name with
  | some v => .ok v
  | none => .error (.unboundVariable name)

/-- Two truth values combined. -/
def connect (f : Bool → Bool → Bool) (arguments : List Value) : Except Fault Value := do
  let (a, b) ← two arguments
  let p ← a.toBool
  let q ← b.toBool
  return .bool (f p q)

/-- **What an operator makes of its arguments.** -/
def Operator.apply (bound : Bindings) (op : Operator) (arguments : List Value) :
    Except Fault Value :=
  match op with
  | .root => .ok (arguments.head?.getD .empty)
  | .add => do let (a, b) ← two arguments; sum a b
  | .subtract => do
    let (a, b) ← two arguments
    calculate .subtracting (fun i j => some (i - j)) (· - ·) a b
  | .negate => do opposite (← one arguments)
  | .multiply => do
    let (a, b) ← two arguments
    calculate .multiplying (fun i j => some (i * j)) (· * ·) a b
  | .divide => do
    let (a, b) ← two arguments
    calculate .dividing (quotient Int.tdiv) (· / ·) a b
  | .modulo => do
    let (a, b) ← two arguments
    calculate .modulating (quotient Int.tmod) floatRemainder a b
  | .power => do
    let (a, b) ← two arguments
    let x ← a.toNumber
    let y ← b.toNumber
    return .float (x.pow y)
  | .equal => do let (a, b) ← two arguments; return .bool (a.same b)
  | .unequal => do let (a, b) ← two arguments; return .bool (!a.same b)
  | .greater => do
    let (a, b) ← two arguments
    compare (fun s t => t < s) (fun i j => j < i) (fun x y => y < x) a b
  | .less => do
    let (a, b) ← two arguments
    compare (fun s t => s < t) (fun i j => i < j) (fun x y => x < y) a b
  | .atLeast => do
    let (a, b) ← two arguments
    compare (fun s t => !(s < t)) (fun i j => j ≤ i) (fun x y => y ≤ x) a b
  | .atMost => do
    let (a, b) ← two arguments
    compare (fun s t => !(t < s)) (fun i j => i ≤ j) (fun x y => x ≤ y) a b
  | .both => connect (· && ·) arguments
  | .either => connect (· || ·) arguments
  | .complement => do return .bool (!(← (← one arguments).toBool))
  | .assign => .error .assignment
  | .tuple => .ok (.tuple arguments)
  | .chain => .ok (arguments.getLast?.getD .empty)
  | .constant v => .ok v
  | .target name => .ok (.string name)
  | .variable name => look bound name
  | .function name => do call name (← one arguments)

mutual

/-- The value of a tree: arguments first, from left to right. -/
def Node.evaluate (bound : Bindings) : Node → Except Fault Value
  | .bare op => op.apply bound []
  | .node op before last => do
    let first ← evaluateAll bound before
    let v ← evaluate bound last
    op.apply bound (first ++ [v])

/-- The values of trees. -/
def Node.evaluateAll (bound : Bindings) : List Node → Except Fault (List Value)
  | [] => .ok []
  | n :: rest => do
    let v ← evaluate bound n
    let vs ← evaluateAll bound rest
    return v :: vs

end

/-- **The value of an expression** over the parts of a JSON value. -/
def evaluate (text : String) (j : Json) : Except Fault Value := do
  let tree ← Node.parse text
  tree.evaluate (bindings j)

end CallChain.Predicate
