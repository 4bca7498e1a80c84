import Prebake.Obstacle

/-!
# Expressions

The syntax of the expressions that properties and bindings are given by. The forms that have a value at build time are
kept in full. Calls, functions, element markup and the like never have one, so a `Construct` keeps only which of them
it is.
-/

namespace Prebake

/-- The operators in front of an operand. -/
inductive UnaryOp where
  | not
  | negate
  | plus
  | typeOf
  | void
  | bitNot
  | delete
deriving DecidableEq, Repr

/-- The spelling of a unary operator. -/
def UnaryOp.symbol : UnaryOp → String
  | not => "!"
  | negate => "-"
  | plus => "+"
  | typeOf => "typeof"
  | void => "void"
  | bitNot => "~"
  | delete => "delete"

/-- The operators between two operands that are both evaluated. -/
inductive BinaryOp where
  | add
  | subtract
  | multiply
  | divide
  | remainder
  | power
  | strictEq
  | strictNe
  | looseEq
  | looseNe
  | lt
  | le
  | gt
  | ge
  | bitOr
  | bitXor
  | bitAnd
  | shiftLeft
  | shiftRight
  | shiftRightZero
  | inObject
  | instanceOf
deriving DecidableEq, Repr

/-- The spelling of a binary operator. -/
def BinaryOp.symbol : BinaryOp → String
  | add => "+"
  | subtract => "-"
  | multiply => "*"
  | divide => "/"
  | remainder => "%"
  | power => "**"
  | strictEq => "==="
  | strictNe => "!=="
  | looseEq => "=="
  | looseNe => "!="
  | lt => "<"
  | le => "<="
  | gt => ">"
  | ge => ">="
  | bitOr => "|"
  | bitXor => "^"
  | bitAnd => "&"
  | shiftLeft => "<<"
  | shiftRight => ">>"
  | shiftRightZero => ">>>"
  | inObject => "in"
  | instanceOf => "instanceof"

/-- The operators that may be decided by their left side. -/
inductive LogicalOp where
  | and
  | or
  | coalesce
deriving DecidableEq, Repr

/-- The forms that have no value at build time, told apart as far as messages do. -/
inductive Construct where
  | call
  | function
  | element
  | await
  | other
deriving DecidableEq, Repr

/-- What stands in the way of a value for such a form. -/
def Construct.obstacle : Construct → Obstacle
  | call => .call
  | function => .function
  | element => .elementMarkup
  | await | other => .expressionKind

mutual

/-- The expressions, told apart as far as evaluation does. -/
inductive Expr where
  | null
  | bool (b : Bool)
  | number (x : Float)
  | string (s : String)
  | name (n : String)
  | template (head : String) (rest : List Span)
  | array (elements : List Element)
  | object (properties : List Property)
  /-- `object.key`, or `object?.key` -/
  | member (object : Expr) (key : String) (optional : Bool)
  /-- `object[key]`, or `object?.[key]` -/
  | index (object key : Expr) (optional : Bool)
  /-- `object.#key` -/
  | privateMember (object : Expr)
  /-- The whole of a chain of accesses in which some access is optional. -/
  | chain (accesses : Expr)
  | unary (op : UnaryOp) (operand : Expr)
  | binary (op : BinaryOp) (left right : Expr)
  | logical (op : LogicalOp) (left right : Expr)
  | conditional (test yes no : Expr)
  | assign (plain : Bool) (target value : Expr)
  | paren (inner : Expr)
  /-- An expression with a type stated for it. -/
  | typed (inner : Expr)
  /-- An expression marked as not null. -/
  | nonNull (inner : Expr)
  | construct (kind : Construct)

/-- A hole in a template with the literal text after it. -/
inductive Span where
  | mk (hole : Expr) (text : String)

/-- A place in an array. -/
inductive Element where
  | item (value : Expr)
  | blank
  /-- The flag says whether the array ends here, without a comma. -/
  | spread (value : Expr) (final : Bool)

/-- The key of a property. -/
inductive Key where
  | text (s : String)
  | number (x : Float)
  | computed (value : Expr)
  | unsupported

/-- A member of an object. -/
inductive Property where
  | entry (key : Key) (value : Expr)
  | shorthand (name : String)
  /-- `name = value`, which only a pattern may hold -/
  | shorthandDefault (name : String) (value : Expr)
  | methodOrAccessor
  /-- The flag says whether the object ends here, without a comma. -/
  | spread (value : Expr) (final : Bool)

end

instance : Inhabited Expr := ⟨.null⟩

namespace Expr

/-- Whether a value can be assigned to the expression as a whole: to a name or a member, also inside parentheses or
with a type stated. -/
def isSimpleTarget : Expr → Bool
  | name _ | member .. | index .. | privateMember _ | typed _ | nonNull _ => true
  | paren inner => isSimpleTarget inner
  | _ => false

mutual

/-- The number of shorthand defaults that become part of a pattern when the expression is read as the target of an
assignment; none if it is no target. -/
def patternDefaults? : Expr → Option Nat
  | array elements => elementDefaults? elements
  | object properties => propertyDefaults? properties
  | e => if e.isSimpleTarget then some 0 else none

/-- The number of shorthand defaults in an array that is read as a pattern. -/
def elementDefaults? : List Element → Option Nat
  | [] => some 0
  | .blank :: rest => elementDefaults? rest
  | .item (.assign true _ _) :: rest => elementDefaults? rest
  | .item e :: rest => do return (← patternDefaults? e) + (← elementDefaults? rest)
  | .spread e final :: _ => if final then patternDefaults? e else none

/-- The number of shorthand defaults in an object that is read as a pattern. -/
def propertyDefaults? : List Property → Option Nat
  | [] => some 0
  | .shorthand _ :: rest => propertyDefaults? rest
  | .shorthandDefault _ _ :: rest => do return (← propertyDefaults? rest) + 1
  | .entry _ (.assign true _ _) :: rest => propertyDefaults? rest
  | .entry _ e :: rest => do return (← patternDefaults? e) + (← propertyDefaults? rest)
  | .spread e final :: _ => if final && e.isSimpleTarget then some 0 else none
  | .methodOrAccessor :: _ => none

end

end Expr

end Prebake
