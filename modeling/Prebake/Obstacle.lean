/-!
# Obstacles

An obstacle is a reason for which an expression has no value, or a value no markup, at build time, however far the
scope is widened.
-/

namespace Prebake

/-- A use of a value that needs to know what the value is. -/
inductive Inspection where
  | condition
  | arithmetic
  | stringOperation
  | comparison
  | memberAccess
deriving DecidableEq, Repr

/-- The uses of an inspected value, as they are named in messages. -/
def Inspection.name : Inspection → String
  | condition => "conditions"
  | arithmetic => "arithmetic"
  | stringOperation => "string operations"
  | comparison => "comparisons"
  | memberAccess => "member access"

/-- What stands in the way of a value or of its markup. -/
inductive Obstacle where
  /-- A server value was inspected. -/
  | inspected (use : Inspection)
  /-- A property was read of `undefined` or `null`. -/
  | propertyOfNothing (key receiver : String)
  /-- The source is no expression. -/
  | malformed (source : String)
  /-- A binding was needed for its own value. -/
  | selfReference (name : String)
  /-- Too many bindings were under evaluation at once. -/
  | nestedTooDeeply (name : String)
  | unaryOperator (symbol : String)
  | binaryOperator (symbol : String)
  | arraySpread
  | objectSpread
  | methodOrAccessor
  | objectKey
  | optionalCall
  | call
  | function
  | elementMarkup
  /-- The expression is of some other kind that has no value at build time. -/
  | expressionKind
  | objectAttribute (property : String)
  | objectText
  | styleEntry (property : String)
deriving DecidableEq, Repr

/-- The wording of an obstacle. That of a malformed source ends with the source: what the parser has against it, which would
stand after a colon, is no part of an obstacle and is left out. -/
def Obstacle.message : Obstacle → String
  | inspected use => "server values are only known at serve time and cannot be used in " ++ use.name
  | propertyOfNothing key receiver => "cannot read property `" ++ key ++ "` of " ++ receiver
  | malformed source => "invalid expression syntax in `" ++ source ++ "`"
  | selfReference name => "binding `" ++ name ++ "` is defined in terms of itself"
  | nestedTooDeeply name => "binding `" ++ name ++ "` nests too deeply"
  | unaryOperator symbol => "unsupported unary operator `" ++ symbol ++ "`"
  | binaryOperator symbol => "unsupported binary operator `" ++ symbol ++ "`"
  | arraySpread => "array spread is not supported at build time"
  | objectSpread => "object spread is not supported at build time"
  | methodOrAccessor => "methods and accessors cannot be rendered"
  | objectKey => "unsupported object key"
  | optionalCall => "optional calls run only at runtime"
  | call => "function calls run only at runtime"
  | function => "functions cannot be rendered to markup"
  | elementMarkup => "JSX in props is rendered by its own primitives"
  | expressionKind => "expression kind is not supported at build time"
  | objectAttribute property => "object value for attribute `" ++ property ++ "` has no markup form"
  | objectText => "objects are not valid as text content"
  | styleEntry property => "style property `" ++ property ++ "` must be a string or number"

end Prebake
