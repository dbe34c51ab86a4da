import CallChain.Predicate.Token

/-!
# Expression trees

Tokens are put into a tree one by one. A new node goes down the right edge of the tree as long as
it binds more tightly than what it meets, and takes over the part that it stops at. Parentheses and
the elements of a sequence have roots of their own, which wait on a stack.

* `Operator`, `Operator.precedence`, `Operator.arity?`.
* `Node`, `Node.insert`: a tree and how a node finds its place.
* `Node.ofTokens`, `Node.parse`: the tree of a text.
-/

set_option autoImplicit false

namespace CallChain.Predicate

/-! ### Operators -/

/-- **What a node of a tree does** with its arguments. -/
inductive Operator where
  /-- A whole expression or a group. -/
  | root
  | add
  | subtract
  | negate
  | multiply
  | divide
  | modulo
  | power
  | equal
  | unequal
  | greater
  | less
  | atLeast
  | atMost
  | both
  | either
  | complement
  | assign
  | tuple
  | chain
  | constant (value : Value)
  /-- The name on the left of an assignment. -/
  | target (name : String)
  | variable (name : String)
  | function (name : String)

namespace Operator

/-- How tightly an operator binds. -/
def precedence : Operator → Nat
  | .root | .constant _ | .target _ | .variable _ => 200
  | .function _ => 190
  | .power => 120
  | .negate | .complement => 110
  | .multiply | .divide | .modulo => 100
  | .add | .subtract => 95
  | .equal | .unequal | .greater | .less | .atLeast | .atMost => 80
  | .both => 75
  | .either => 70
  | .assign => 50
  | .tuple => 40
  | .chain => 0

/-- How many arguments an operator takes; sequences take any number. -/
def arity? : Operator → Option Nat
  | .root | .negate | .complement | .function _ => some 1
  | .constant _ | .target _ | .variable _ => some 0
  | .tuple | .chain => none
  | _ => some 2

/-- Whether an operator is a whole expression or a group. -/
def isRoot : Operator → Bool
  | .root => true
  | _ => false

/-- Whether an operator takes no arguments. -/
def isLeaf (op : Operator) : Bool := op.arity? == some 0

/-- Whether an operator stands before its only argument. -/
def isUnary (op : Operator) : Bool := op.arity? == some 1 && !op.isRoot

/-- Whether an operator makes a sequence. -/
def isSequence (op : Operator) : Bool := op.arity? == none

/-- Whether an operator groups to the right. -/
def groupsRight : Operator → Bool
  | .assign | .function _ => true
  | _ => false

/-- Whether two operators make the same kind of sequence. -/
def sameSequence : Operator → Operator → Bool
  | .tuple, .tuple => true
  | .chain, .chain => true
  | _, _ => false

/-- Whether a new operator belongs below one that is in the tree already. -/
def yieldsTo (present new : Operator) : Bool :=
  present.precedence < new.precedence || new.isUnary
    || (present.precedence == new.precedence && present.groupsRight && new.groupsRight)

end Operator

/-! ### Nodes -/

/-- **A tree**: an operator and its arguments, the last of which stands apart. -/
inductive Node where
  | bare (op : Operator)
  | node (op : Operator) (before : List Node) (last : Node)

namespace Node

/-- The operator on top. -/
def operator : Node → Operator
  | .bare op => op
  | .node op _ _ => op

/-- The number of arguments. -/
def count : Node → Nat
  | .bare _ => 0
  | .node _ before _ => before.length + 1

/-- A tree with one more argument. -/
def push (n new : Node) : Node :=
  match n with
  | .bare op => .node op [] new
  | .node op before last => .node op (before ++ [last]) new

/-- A tree with the given arguments. -/
def ofArguments (op : Operator) (arguments : List Node) : Node := arguments.foldl push (.bare op)

/-- An empty group. -/
def root : Node := .bare .root

/-- Whether a new node may take over an argument of a node: groups do not hold groups side by
side with anything. -/
def mayTakeOver (op : Operator) (new last : Node) : Bool :=
  !new.operator.isRoot || (!op.isRoot && new.count == 0 && !last.operator.isRoot)

/-- **Puts a new node into a tree.** It goes into the last argument if that yields to it, and takes
the last argument over otherwise; a node with too few arguments just gets one more. -/
def insert (new : Node) : Node → Except Fault Node
  | .bare op => if op.isLeaf then .error .appendedToLeaf else .ok (.node op [] new)
  | .node op before last =>
    if op.arity? = some (before.length + 1) then
      if last.operator.yieldsTo new.operator then (insert new last).map (.node op before ·)
      else if new.operator.isLeaf then .error .appendedToLeaf
      else if mayTakeOver op new last then .ok (.node op before (new.push last))
      else .error .missingOperator
    else .ok (.node op (before ++ [last]) new)

end Node

/-! ### Building -/

/-- Trees under construction, the innermost first. -/
abbrev Pending := List Node

namespace Pending

/-- Closes the sequences on top: each becomes an argument of what is below it. -/
def closeSequences : Pending → Except Fault (Node × Pending)
  | [] => .error .unmatchedClosing
  | top :: rest =>
    if top.operator.isSequence then
      match rest with
      | [] => .error .unmatchedClosing
      | below :: more => closeSequences (below.push top :: more)
    else .ok (top, rest)
termination_by p => p.length

/-- Closes everything above a sequence of the given precedence. -/
def closeDownTo (precedence : Nat) : Node → Pending → Except Fault (Node × Pending)
  | _, [] => .error .unmatchedClosing
  | top, below :: rest =>
    if precedence < below.operator.precedence then closeDownTo precedence (below.push top) rest
    else .ok (top, below :: rest)

/-- Starts or goes on with a sequence. One that binds more tightly than the sequence on top begins
with the last element of that one; before one that binds less tightly the trees on top are
closed. -/
def separate (op : Operator) : Pending → Except Fault Pending
  | [] => .error .unmatchedClosing
  | top :: rest =>
    if top.operator.sameSequence op then .ok (top.push .root :: rest)
    -- The group so far is the first element; a new group below takes the sequence in the end.
    else if top.operator.isRoot then .ok (.node op [top] .root :: .root :: rest)
    else if top.operator.precedence < op.precedence then
      match top with
      | .node outer before last =>
        .ok (.node op [last] .root :: Node.ofArguments outer before :: rest)
      | .bare _ => .error .unmatchedClosing
    else do
      -- Groups bind most tightly, so the one that holds the whole text is closed as well.
      let (closed, rest) ← closeDownTo op.precedence top rest
      return .node op [] closed :: rest

/-- Puts a node into the innermost tree, in a sequence into its last element. -/
def place (new : Node) : Pending → Except Fault Pending
  | [] => .error .unmatchedClosing
  | top :: rest =>
    if top.operator.isSequence then
      match top with
      | .node op before last => (new.insert last).map (fun last => .node op before last :: rest)
      | .bare _ => .error .unmatchedClosing
    else (new.insert top).map (· :: rest)

end Pending

namespace Token

/-- Whether a value may end with the token. -/
def endsValue : Token → Bool
  | .closing | .identifier _ | .float _ | .int _ | .bool _ | .string _ => true
  | _ => false

/-- Whether a value may start with the token. -/
def startsValue : Token → Bool
  | .opening | .identifier _ | .float _ | .int _ | .bool _ | .string _ => true
  | _ => false

/-- What a name stands for, seen from what follows it. -/
def ofName (name : String) : Option Token → Operator
  | some .assign => .target name
  | some next => if next.startsValue then .function name else .variable name
  | none => .variable name

/-- The operator of a token that is no parenthesis. `afterValue` says whether a value ends before
it, which makes a minus a subtraction. -/
def operator? (token : Token) (afterValue : Bool) (next? : Option Token) : Option Operator :=
  match token with
  | .plus => some .add
  | .minus => some (if afterValue then .subtract else .negate)
  | .star => some .multiply
  | .slash => some .divide
  | .percent => some .modulo
  | .hat => some .power
  | .equal => some .equal
  | .unequal => some .unequal
  | .greater => some .greater
  | .less => some .less
  | .atLeast => some .atLeast
  | .atMost => some .atMost
  | .both => some .both
  | .either => some .either
  | .negate => some .complement
  | .assign => some .assign
  | .comma => some .tuple
  | .semicolon => some .chain
  | .identifier name => some (ofName name next?)
  | .float x => some (.constant (.float x))
  | .int i => some (.constant (.int i))
  | .bool b => some (.constant (.bool b))
  | .string s => some (.constant (.string s))
  | .opening | .closing => none

end Token

namespace Pending

/-- The trees after one more token. -/
def step (token : Token) (afterValue : Bool) (next? : Option Token) (p : Pending) :
    Except Fault Pending :=
  match token with
  | .opening => .ok (.root :: p)
  | .closing =>
    if p.length ≤ 1 then .error .unmatchedClosing
    else do
      let (group, rest) ← closeSequences p
      place group rest
  | _ =>
    match token.operator? afterValue next? with
    | none => .ok p
    | some op => if op.isSequence then separate op p else place (.bare op) p

/-- The trees after all tokens. -/
def run : Bool → List Token → Pending → Except Fault Pending
  | _, [], p => .ok p
  | afterValue, token :: rest, p => do
    let p ← step token afterValue rest.head? p
    run token.endsValue rest p

end Pending

/-- **The tree of tokens.** -/
def Node.ofTokens (ts : List Token) : Except Fault Node := do
  let p ← Pending.run false ts [.root]
  let (top, rest) ← Pending.closeSequences p
  if rest.isEmpty then return top else throw .unmatchedOpening

/-- **The tree of a text.** -/
def Node.parse (text : String) : Except Fault Node := (tokens text).bind Node.ofTokens

end CallChain.Predicate
