import Prebake.Expr.Grammar
import Prebake.Scope
import Prebake.Value.Operations

/-!
# Evaluation

An expression is evaluated over the bindings of a scope and nothing else. `Expr.eval` takes the values of names from a
function; `Scope.valueOf` is that function for a scope. A binding is itself evaluated in the scope seen from its own
layer, and at most `maxNesting` bindings are under evaluation at once.
-/

namespace Prebake

/-- Why an expression has no value. Only a wider scope can change the first two outcomes. -/
inductive EvalError where
  | missingBinding (name : String)
  | runtimeOnly (name : String)
  | notComputable (obstacle : Obstacle)
deriving DecidableEq, Repr

/-- The wording of an error. -/
def EvalError.message : EvalError → String
  | missingBinding name => "`" ++ name ++ "` is not declared in any scope supplied so far"
  | runtimeOnly name => "`" ++ name ++ "` only exists at runtime"
  | notComputable obstacle => obstacle.message

/-- The outcome of an evaluation. -/
abbrev Evaluated (α : Type) : Type := Except EvalError α

/-- The outcome of an operation on values, as part of an evaluation. -/
def Evaluated.ofOperation {α : Type} (result : Except Obstacle α) : Evaluated α :=
  result.mapError .notComputable

instance {α : Type} : Coe (Except Obstacle α) (Evaluated α) := ⟨Evaluated.ofOperation⟩

/-- An expression without a value at build time. -/
def notComputable {α : Type} (obstacle : Obstacle) : Evaluated α := .error (.notComputable obstacle)

/-- The value of a unary operator applied to a value. -/
def UnaryOp.apply (op : UnaryOp) (operand : Value) : Except Obstacle Value :=
  match op with
  | .not => do return .bool !(← operand.truth)
  | .negate => do return .number (-(← operand.toNumber))
  | .plus => do return .number (← operand.toNumber)
  | .typeOf => .ok (.string operand.typeName)
  | .void => .ok .undefined
  | .bitNot | .delete => .error (.unaryOperator op.symbol)

/-- An operation on numbers applied to two values, the left one coerced first. -/
def Value.onNumbers (f : Float → Float → Float) (left right : Value) : Except Obstacle Value := do
  return .number (f (← left.toNumber) (← right.toNumber))

/-- A condition on the order of two values. -/
def Value.onOrder (holds : Ordering → Bool) (left right : Value) : Except Obstacle Value := do
  return .bool ((← left.order right).any holds)

/-- The value of a binary operator applied to two values. -/
def BinaryOp.apply (op : BinaryOp) (left right : Value) : Except Obstacle Value :=
  match op with
  | .add => left.add right
  | .subtract => left.onNumbers (· - ·) right
  | .multiply => left.onNumbers (· * ·) right
  | .divide => left.onNumbers (· / ·) right
  | .remainder => left.onNumbers Prebake.remainder right
  | .power => left.onNumbers Float.pow right
  | .strictEq => do return .bool (← left.strictEq right)
  | .strictNe => do return .bool !(← left.strictEq right)
  | .looseEq => do return .bool (← left.looseEq right)
  | .looseNe => do return .bool !(← left.looseEq right)
  | .lt => left.onOrder (· == .lt) right
  | .le => left.onOrder (· != .gt) right
  | .gt => left.onOrder (· == .gt) right
  | .ge => left.onOrder (· != .lt) right
  | .bitOr | .bitXor | .bitAnd | .shiftLeft | .shiftRight | .shiftRightZero | .inObject | .instanceOf =>
    .error (.binaryOperator op.symbol)

/-- Whether a logical operator is decided by its left operand. -/
def LogicalOp.decidedBy (op : LogicalOp) (left : Value) : Except Obstacle Bool :=
  match op with
  | .and => do return !(← left.truth)
  | .or => left.truth
  | .coalesce => .ok !left.isNullish

namespace Expr

mutual

/-- The value of an expression, where `valueOf` gives the values of names. -/
def eval (valueOf : String → Evaluated Value) : Expr → Evaluated Value
  | null => .ok .null
  | bool b => .ok (.bool b)
  | number x => .ok (.number x)
  | string s => .ok (.string s)
  | name n => valueOf n
  | paren inner | typed inner | nonNull inner => eval valueOf inner
  | template head rest => do
    return Value.ofSegments (.text head :: (← evalSpans valueOf rest))
  | array elements => do return .array (← evalElements valueOf elements)
  | object properties => do return .object (← evalProperties valueOf [] properties)
  | member e key optional => do
    let receiver ← eval valueOf e
    if optional && receiver.isNullish then return .undefined
    receiver.member (.string key)
  | index e key optional => do
    let receiver ← eval valueOf e
    if optional && receiver.isNullish then return .undefined
    receiver.member (← eval valueOf key)
  | chain accesses =>
    match accesses with
    | member .. | index .. => eval valueOf accesses
    | _ => notComputable .optionalCall
  | unary op operand => do op.apply (← eval valueOf operand)
  | binary op left right => do
    let left ← eval valueOf left
    op.apply left (← eval valueOf right)
  | logical op left right => do
    let left ← eval valueOf left
    let decided : Bool ← op.decidedBy left
    if decided then return left
    eval valueOf right
  | conditional test yes no => do
    let test ← eval valueOf test
    let holds : Bool ← test.truth
    if holds then eval valueOf yes else eval valueOf no
  | privateMember _ | assign .. => notComputable .expressionKind
  | construct kind => notComputable kind.obstacle

/-- The segments of the holes of a template and of the texts after them. -/
def evalSpans (valueOf : String → Evaluated Value) : List Span → Evaluated (List Segment)
  | [] => .ok []
  | .mk hole text :: rest => do
    let value ← eval valueOf hole
    return value.toSegments ++ .text text :: (← evalSpans valueOf rest)

/-- The items of an array; a place left blank is `undefined`. -/
def evalElements (valueOf : String → Evaluated Value) : List Element → Evaluated (List Value)
  | [] => .ok []
  | .item e :: rest => do
    let value ← eval valueOf e
    return value :: (← evalElements valueOf rest)
  | .blank :: rest => do return .undefined :: (← evalElements valueOf rest)
  | .spread .. :: _ => notComputable .arraySpread

/-- The fields of an object, added to those that are there already. -/
def evalProperties (valueOf : String → Evaluated Value) (fields : List (String × Value)) :
    List Property → Evaluated (List (String × Value))
  | [] => .ok fields
  | .entry key e :: rest => do
    let key ← evalKey valueOf key
    let value ← eval valueOf e
    evalProperties valueOf (setField key value fields) rest
  | .shorthand n :: rest => do
    let value ← valueOf n
    evalProperties valueOf (setField n value fields) rest
  | .shorthandDefault _ _ :: _ => notComputable .expressionKind
  | .methodOrAccessor :: _ => notComputable .methodOrAccessor
  | .spread .. :: _ => notComputable .objectSpread

/-- The name that a key of an object gives. -/
def evalKey (valueOf : String → Evaluated Value) : Key → Evaluated String
  | .text s => .ok s
  | .number x => .ok (writeNumber x)
  | .computed e => do (← eval valueOf e).toText
  | .unsupported => notComputable .objectKey

end

end Expr

/-- The text of an expression without blanks around it and without the semicolons at its end. -/
def trimSource (source : String) : List Char :=
  trimBlank (dropEnd (· == ';') (trimBlank source.toList))

/-- The value of the expression with a source, where `valueOf` gives the values of names. An empty source denotes
`undefined`. -/
def evalSource (valueOf : String → Evaluated Value) (source : String) : Evaluated Value :=
  let trimmed := trimSource source
  if trimmed.isEmpty then .ok .undefined
  else match Expr.read? trimmed with
    | some e => e.eval valueOf
    | none => notComputable (.malformed (String.ofList trimmed))

/-- The value of what is given, where `valueOf` gives the values of names. -/
def Given.evalWith (valueOf : String → Evaluated Value) : Given → Evaluated Value
  | literal value => .ok (.ofJson value)
  | slot name => .ok (.ofSlot name)
  | expression source | unclassified source => evalSource valueOf source

/-- The value of a name that no layer of a scope binds. -/
def unboundValue (name : String) : Evaluated Value :=
  if name = "undefined" then .ok .undefined
  else if name = "NaN" then .ok (.number notANumber)
  else if name = "Infinity" then .ok (.number infinity)
  else if runtimeNames.contains name then .error (.runtimeOnly name)
  else .error (.missingBinding name)

/-- How many bindings may be under evaluation at once. -/
def maxNesting : Nat := 64

namespace Scope

/-- The mark of a binding under evaluation. -/
def bindingMark (scope : Scope) (index : Nat) (name : String) : String :=
  (scope.owner? index).getD "" ++ "#" ++ name

/-- The value of a name in a scope while the bindings with the marks `active` are under evaluation and `room` further
ones may be. A binding is evaluated in the scope as it is seen from its own layer. -/
def valueOfName : Nat → List String → Scope → String → Evaluated Value
  | room, active, scope, name =>
    match scope.find? name with
    | none => unboundValue name
    | some (index, given) =>
      let mark := scope.bindingMark index name
      if active.contains mark then notComputable (.selfReference name)
      else match room with
        | 0 => notComputable (.nestedTooDeeply name)
        | room + 1 => given.evalWith (valueOfName room (mark :: active) (scope.fromLayer index))

/-- The value of a name in a scope. -/
def valueOf (scope : Scope) : String → Evaluated Value := valueOfName maxNesting [] scope

end Scope

/-- The value of what is given, in a scope. -/
def Given.eval (given : Given) (scope : Scope) : Evaluated Value := given.evalWith scope.valueOf

end Prebake
