import Prebake.Expr.Basic
import Prebake.Expr.Cursor

/-!
# The rules that refer to each other

The grammar of expressions is recursive through the rules gathered in `Rules`. Each module of the grammar defines its
rules over a given `Rules`, and `Rules.ofDepth` ties the knot level by level: a rule used inside another one is
taken from the level below, and every text nests less deeply than it is long.
-/

namespace Prebake

/-- How much a parameter of a function takes. -/
inductive Parameter where
  | plain
  /-- with a value for a missing argument -/
  | optional
  /-- all arguments that are left -/
  | rest
deriving DecidableEq

/-- The readers of expressions that a rule may use for what is nested in it. -/
structure Rules where
  /-- An expression without a comma at its top. In some places an arrow function may not state the type of its result,
  since a colon follows there. -/
  expression : Bool → TokenReader Expr
  /-- An expression of operators that bind more tightly than a given strength. -/
  operators : Nat → TokenReader Expr
  /-- An operand with the unary operators before it. -/
  unary : TokenReader Expr
  /-- An operand with the accesses and calls after it. -/
  target : TokenReader Expr
  /-- A type. -/
  type : TokenReader Unit
  /-- A name, or a pattern of names, that is bound. -/
  pattern : TokenReader Unit
  /-- The parameters of a function in their parentheses. -/
  parameters : TokenReader (List Parameter)
  /-- A statement, which stands in a list of statements or alone. Some declarations are not allowed alone. -/
  statement : Bool → TokenReader Unit
  /-- An element of markup, the sign `<` before it included. -/
  element : TokenReader Unit

namespace Rules

/-- Rules that accept nothing. -/
def empty : Rules where
  expression _ := failure
  operators _ := failure
  unary := failure
  target := failure
  type := failure
  pattern := failure
  parameters := failure
  statement _ := failure
  element := failure

open TokenReader

/-- One expression, or several with commas between them, which have no value together. -/
def expressions (r : Rules) : TokenReader Expr := do
  let first ← r.expression true
  loop (fun _ => do
    if ← eatSign "," then
      let _ ← r.expression true
      return some (.construct .other)
    else return none) first

/-- Takes an expression that has been read for the target of an assignment. -/
def becomeTarget (e : Expr) : TokenReader Unit := do
  match e.patternDefaults? with
  | none => failure
  | some settled => adjust fun setting => { setting with openDefaults := setting.openDefaults - settled }

end Rules

end Prebake
