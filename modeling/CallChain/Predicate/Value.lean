import CallChain.Number.Layout
import CallChain.Text.Escaped

/-!
# Values of predicates

* `Value`: what an expression can evaluate to, with `Value.sort`.
* `Value.same`: equality, under which whole numbers and machine numbers stay apart.
* `Value.shown`, `Value.plain`: how a value appears in messages, and as text.
* `Fault`: why an expression has no value, with `Fault.message`.
-/

set_option autoImplicit false

namespace CallChain.Predicate

/-- **A value of an expression.** Whole numbers have sixty-four bits with sign. -/
inductive Value where
  | string (text : String)
  | float (x : Float)
  | int (i : Int)
  | bool (b : Bool)
  | tuple (items : List Value)
  | empty
deriving Inhabited

/-- The sort of a value. -/
inductive ValueSort where
  | string
  | float
  | int
  | bool
  | tuple
  | empty
deriving DecidableEq, Repr

/-- How messages name a sort. -/
def ValueSort.name : ValueSort → String
  | .string => "String"
  | .float => "Float"
  | .int => "Int"
  | .bool => "Boolean"
  | .tuple => "Tuple"
  | .empty => "Empty"

namespace Value

/-- The sort of a value. -/
def sort : Value → ValueSort
  | .string _ => .string
  | .float _ => .float
  | .int _ => .int
  | .bool _ => .bool
  | .tuple _ => .tuple
  | .empty => .empty

mutual

/-- **Equality of values**: same sort, same value; NaN equals nothing. -/
def same : Value → Value → Bool
  | .string a, .string b => a == b
  | .float a, .float b => a == b
  | .int a, .int b => a == b
  | .bool a, .bool b => a == b
  | .tuple a, .tuple b => sameItems a b
  | .empty, .empty => true
  | _, _ => false

/-- Equality of items, place by place. -/
def sameItems : List Value → List Value → Bool
  | [], [] => true
  | a :: as, b :: bs => same a b && sameItems as bs
  | _, _ => false

end

mutual

/-- How a value appears in messages, with its sort. -/
def shown : Value → String
  | .string s => "String(" ++ Text.escaped s ++ ")"
  | .float x => "Float(" ++ Layout.debug.writeFloat x ++ ")"
  | .int i => "Int(" ++ toString i ++ ")"
  | .bool b => "Boolean(" ++ (if b then "true" else "false") ++ ")"
  | .tuple items => "Tuple([" ++ ", ".intercalate (shownItems items) ++ "])"
  | .empty => "Empty"

/-- How items appear in messages. -/
def shownItems : List Value → List String
  | [] => []
  | v :: rest => shown v :: shownItems rest

end

mutual

/-- A value as part of a text: strings stand in quotes. -/
def quoted : Value → String
  | .string s => "\"" ++ s ++ "\""
  | .float x => Layout.plain.writeFloat x
  | .int i => toString i
  | .bool b => if b then "true" else "false"
  | .tuple items => "(" ++ ", ".intercalate (quotedItems items) ++ ")"
  | .empty => "()"

/-- Items as parts of a text. -/
def quotedItems : List Value → List String
  | [] => []
  | v :: rest => quoted v :: quotedItems rest

end

/-- A value as a text of its own: a string is its text. -/
def plain : Value → String
  | .string s => s
  | other => other.quoted

end Value

/-! ### Faults -/

/-- An operation on whole numbers that may have no result. -/
inductive Calculation where
  | adding
  | subtracting
  | multiplying
  | dividing
  | modulating
deriving DecidableEq, Repr

/-- The name and the sign of a calculation. -/
def Calculation.words : Calculation → String × String
  | .adding => ("adding", "+")
  | .subtracting => ("subtracting", "-")
  | .multiplying => ("multiplying", "*")
  | .dividing => ("dividing", "/")
  | .modulating => ("modulating", "%")

/-- **Why an expression has no value.** -/
inductive Fault where
  | unmatchedQuote
  | illegalEscape (sequence : String)
  | unclosedComment
  | partialToken (first : Char) (second? : Option String)
  | unmatchedOpening
  | unmatchedClosing
  /-- Two groups, or a value and a group, stand side by side. -/
  | missingOperator
  | appendedToLeaf
  | argumentCount (expected actual : Nat)
  | expectedNumber (found : Value)
  | expectedNumberOrString (found : Value)
  | expectedBoolean (found : Value)
  | expectedString (found : Value)
  | expectedInt (found : Value)
  | expectedTuple (found : Value)
  | expectedTupleOf (length : Nat) (found : Value)
  | expectedTupleWithin (least most : Nat) (found : Value)
  | expectedOneOf (sorts : List ValueSort) (found : Value)
  /-- Addition of a number and a string. -/
  | mixedAddition (left right : ValueSort)
  | noResult (calculation : Calculation) (left right : Int)
  | noNegation (value : Int)
  | unboundVariable (name : String)
  | unboundFunction (name : String)
  | assignment
  | outOfBounds

/-- How messages list sorts. -/
def sortList (sorts : List ValueSort) : String :=
  "[" ++ ", ".intercalate (sorts.map ValueSort.name) ++ "]"

/-- The wording of a fault. -/
def Fault.message : Fault → String
  | .unmatchedQuote => "Found an unmatched double quote '\"'"
  | .illegalEscape sequence => "Illegal escape sequence: " ++ sequence
  | .unclosedComment => "Error: unmatched inline comment"
  | .partialToken first (some second) =>
    "Found a partial token '" ++ String.singleton first ++ "' that should not be followed by '"
      ++ second ++ "'."
  | .partialToken first none =>
    "Found a partial token '" ++ String.singleton first
      ++ "' that should be followed by another partial token."
  | .unmatchedOpening => "Found an unmatched opening parenthesis '('."
  | .unmatchedClosing => "Found an unmatched closing parenthesis ')'."
  | .missingOperator =>
    "Found an opening parenthesis that is preceded by something that does not take any arguments "
      ++ "on the right, or found a closing parenthesis that is succeeded by something that does "
      ++ "not take any arguments on the left."
  | .appendedToLeaf => "Tried to append a node to a leaf node."
  | .argumentCount expected actual =>
    "An operator expected " ++ toString expected ++ " arguments, but got " ++ toString actual ++ "."
  | .expectedNumber v => "Expected a Value::Float or Value::Int, but got " ++ v.shown ++ "."
  | .expectedNumberOrString v =>
    "Expected a Value::Number or a Value::String, but got " ++ v.shown ++ "."
  | .expectedBoolean v => "Expected a Value::Boolean, but got " ++ v.shown ++ "."
  | .expectedString v => "Expected a Value::String, but got " ++ v.shown ++ "."
  | .expectedInt v => "Expected a Value::Int, but got " ++ v.shown ++ "."
  | .expectedTuple v => "Expected a Value::Tuple, but got " ++ v.shown ++ "."
  | .expectedTupleOf length v =>
    "Expected a Value::Tuple of length " ++ toString length ++ ", but got " ++ v.shown ++ "."
  | .expectedTupleWithin least most v =>
    "Expected a Value::Tuple of length " ++ toString least ++ " to " ++ toString most
      ++ ", but got " ++ v.shown ++ "."
  | .expectedOneOf sorts v =>
    "Expected one of " ++ sortList sorts ++ ", but got " ++ v.shown ++ "."
  | .mixedAddition left right =>
    "The operator Add was called with a wrong combination of types: " ++ sortList [left, right]
  | .noResult calculation left right =>
    let (name, sign) := calculation.words
    "Error " ++ name ++ " " ++ toString left ++ " " ++ sign ++ " " ++ toString right
  | .noNegation value => "Error negating " ++ toString value
  | .unboundVariable name =>
    "Variable identifier is not bound to anything by context: " ++ Text.escaped name ++ "."
  | .unboundFunction name =>
    "Function identifier is not bound to anything by context: " ++ Text.escaped name ++ "."
  | .assignment => "Cannot manipulate context"
  | .outOfBounds => "Tried to access a tuple or string at an invalid index"

end CallChain.Predicate
