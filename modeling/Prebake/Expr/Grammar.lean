import Prebake.Expr.Elements
import Prebake.Expr.Functions

/-!
# The grammar of expressions

`Expr.read?` reads the expression that a text begins with. What follows it is ignored, but has to begin with a token.
-/

namespace Prebake

namespace Rules

open TokenReader

/-- Binary and logical operators with their strength; a stronger operator takes its operands first. -/
inductive Infix where
  | binary (op : BinaryOp)
  | logical (op : LogicalOp)
  /-- `as` and `satisfies`, which a type follows -/
  | typed

/-- The operator that a sign denotes, with its strength. -/
def signOperator? : String → Option (Infix × Nat)
  | "??" => some (.logical .coalesce, 1)
  | "||" => some (.logical .or, 2)
  | "&&" => some (.logical .and, 3)
  | "|" => some (.binary .bitOr, 4)
  | "^" => some (.binary .bitXor, 5)
  | "&" => some (.binary .bitAnd, 6)
  | "==" => some (.binary .looseEq, 7)
  | "!=" => some (.binary .looseNe, 7)
  | "===" => some (.binary .strictEq, 7)
  | "!==" => some (.binary .strictNe, 7)
  | "<" => some (.binary .lt, 8)
  | ">" => some (.binary .gt, 8)
  | "<=" => some (.binary .le, 8)
  | ">=" => some (.binary .ge, 8)
  | "<<" => some (.binary .shiftLeft, 9)
  | ">>" => some (.binary .shiftRight, 9)
  | ">>>" => some (.binary .shiftRightZero, 9)
  | "+" => some (.binary .add, 10)
  | "-" => some (.binary .subtract, 10)
  | "*" => some (.binary .multiply, 11)
  | "/" => some (.binary .divide, 11)
  | "%" => some (.binary .remainder, 11)
  | "**" => some (.binary .power, 12)
  | _ => none

/-- The operator at the cursor, with its strength. -/
def operator? : TokenReader (Option (Infix × Nat)) := do
  match ← peek with
  | .sign s => return signOperator? s
  | .word "in" false => return if (← get).setting.compares then some (.binary .inObject, 8) else none
  | .word "instanceof" false => return some (.binary .instanceOf, 8)
  | .word "as" false | .word "satisfies" false => return if ← onNewLine then none else some (.typed, 8)
  | _ => return none

/-- The unary operator at the cursor. -/
def unaryOperator? : Token → Option UnaryOp
  | .sign "!" => some .not
  | .sign "-" => some .negate
  | .sign "+" => some .plus
  | .sign "~" => some .bitNot
  | .word "typeof" false => some .typeOf
  | .word "void" false => some .void
  | .word "delete" false => some .delete
  | _ => none

/-- The signs that assign. -/
def assignmentSigns : List String :=
  ["=", "+=", "-=", "*=", "/=", "%=", "**=", "<<=", ">>=", ">>>=", "&=", "|=", "^=", "&&=", "||=", "??="]

/-- Whether an expression may start at the cursor. -/
def atExpression : TokenReader Bool := do
  match ← peek with
  | .numeral _ | .string _ | .template _ _ | .privateName => return true
  | .sign s =>
    return ["(", "[", "\x7b", "/", "/=", "+", "-", "~", "!", "++", "--", "<", "@"].contains s
  | .word w escaped =>
    return escaped || !reservedWords.contains w
      || ["this", "super", "null", "true", "false", "function", "class", "new", "delete", "typeof", "void",
        "import"].contains w
  | _ => return false

/-- Type arguments inside an expression. They are taken as such only if what follows cannot be an operand of `>`. -/
def expressionTypeArguments (r : Rules) : TokenReader Bool := do
  if !(← atAnySign ["<", "<<"]) then return false
  let result ← attempt do
    r.typeArguments
    match ← peek with
    | .sign "(" | .template _ _ => return ()
    | .sign "<" | .sign ">" | .sign "+" | .sign "-" => failure
    | _ =>
      if (← onNewLine) || (← operator?).isSome || !(← atExpression) then return ()
      failure
  return result.isSome

/-- An argument of a call. -/
def argument (r : Rules) : TokenReader Unit := do
  let _ ← eatSign "..."
  let _ ← r.expression true

/-- The arguments of a call in their parentheses. -/
def callArguments (r : Rules) : TokenReader Unit := do
  expectSign "("
  let _ ← listUntil ")" r.argument

/-- An expression in parentheses. -/
def parenthesized (r : Rules) : TokenReader Expr := do
  expectSign "("
  let inner ← enclosed r.expressions
  expectSign ")"
  return .paren inner

/-- The items of an array after the opening bracket. -/
def arrayElements (r : Rules) : TokenReader Expr := enclosed do
  let items ← loop (fun items => do
    if ← atSign "]" then return none
    if ← eatSign "," then return some (.blank :: items)
    let spreads ← eatSign "..."
    let value ← r.expression true
    let final ← atSign "]"
    if !final then expectSign ","
    return some ((if spreads then Element.spread value final else .item value) :: items)) ([] : List Element)
  expectSign "]"
  return .array items.reverse

/-- The key of a property. -/
def objectKey (r : Rules) : TokenReader Key := do
  match ← peek with
  | .word w _ =>
    advance
    return .text w
  | .string s =>
    advance
    return .text s
  | .numeral (.number x) =>
    advance
    return .number x
  | .numeral .big =>
    advance
    return .unsupported
  | .sign "[" =>
    advance
    let key ← enclosed (r.expression true)
    expectSign "]"
    return .computed key
  | _ => failure

/-- Whether a word at the cursor only announces what kind of member follows it. -/
def announcesMember : TokenReader Bool := do
  if (← atWord "get") || (← atWord "set") then beforeKey
  else if ← atWord "async" then
    looksLike do
      advance
      if ← onNewLine then return false
      match ← peek with
      | .word _ _ | .string _ | .numeral _ => return true
      | .sign s => return s = "[" || s = "*"
      | _ => return false
  else return false

/-- A member of an object. -/
def objectMember (r : Rules) : TokenReader Property := do
  if ← eatSign "..." then return .spread (← r.expression true) (← atSign "\x7d")
  let announced ← announcesMember
  let marks ← if announced then pure [← anyWord] else pure []
  let generates ← eatSign "*"
  let bare ← atName
  let name ← peek
  let key ← r.objectKey
  if announced || generates || (← atAnySign ["(", "<"]) then
    r.methodRest marks generates
    return .methodOrAccessor
  if ← eatSign ":" then return .entry key (← r.expression true)
  match name with
  | .word w _ =>
    if !bare then failure
    if ← eatSign "=" then
      adjust fun setting => { setting with openDefaults := setting.openDefaults + 1 }
      return .shorthandDefault w (← r.expression true)
    return .shorthand w
  | _ => failure

/-- The members of an object after the opening brace. -/
def objectMembers (r : Rules) : TokenReader Expr := do
  return .object (← listUntil "\x7d" r.objectMember)

/-- The rest of a template after its first part, with the text of every part. -/
def templateRest (r : Rules) : TokenReader (List (Expr × Option String)) := do
  let (spans, _) ← loop (fun (spans, last) => do
    if last then return none
    let hole ← enclosed r.expressions
    if !(← atSign "\x7d") then failure
    match Quoted.part? ((← get).start.drop 1) with
    | none => failure
    | some part =>
      moveTo part.rest
      return some ((hole, part.text) :: spans, part.last)) ([], false)
  return spans.reverse

/-- A template behind a name, in which bad escapes are allowed. -/
def taggedTemplate (r : Rules) : TokenReader Unit := do
  match ← peek with
  | .template _ last =>
    advance
    if !last then
      let _ ← r.templateRest
  | _ => failure

/-- A template. -/
def template (r : Rules) : TokenReader Expr := do
  match ← peek with
  | .template (some head) last =>
    advance
    let spans ← if last then pure [] else r.templateRest
    match spans.mapM fun (hole, text) => text.map (Span.mk hole) with
    | some rest => return .template head rest
    | none => failure
  | _ => failure

/-- The flags of a regular expression: letters of a fixed set, none of them twice. -/
def goodFlags (flags : List Char) : Bool :=
  flags.all ("dgimsuvy".toList.contains ·) && flags.Nodup

/-- The body of a regular expression up to its closing slash, which does not count inside brackets. -/
def patternBody : Bool → List Char → Option (List Char)
  | _, [] => none
  | inClass, '\\' :: c :: s => if isLineEnd c then none else patternBody inClass s
  | inClass, c :: s =>
    if isLineEnd c then none
    else if c = '/' && !inClass then some s
    else patternBody (if c = '[' then true else if c = ']' then false else inClass) s

/-- A regular expression, whose first slash is at the cursor. -/
def regularExpression : TokenReader Expr := do
  match patternBody false ((← get).start.drop 1) with
  | none => failure
  | some rest =>
    if !goodFlags (rest.takeWhile Identifier.isContinue) then failure
    moveTo (rest.dropWhile Identifier.isContinue)
    return .construct .other

/-- The accesses after an expression, without calls. The flag says whether any of them was optional so far. -/
def accesses (r : Rules) (optionalAllowed : Bool) (first : Expr × Bool) : TokenReader (Expr × Bool) :=
  loop (fun (e, optional) => do
    let opens ← looksLike do
      if !optionalAllowed then return false
      expectSign "?."
      match ← peek with
      | .word _ _ | .privateName | .template _ _ => return true
      | .sign s => return s = "["
      | _ => return false
    if opens then advance
    let optional := optional || opens
    match ← peek with
    | .sign "." =>
      if opens then failure
      advance
      match ← peek with
      | .privateName =>
        advance
        return some (.privateMember e, optional)
      | _ => return some (.member e (← anyWord) false, optional)
    | .sign "[" =>
      advance
      let key ← enclosed r.expressions
      expectSign "]"
      return some (.index e key opens, optional)
    | .sign "!" =>
      if ← onNewLine then return none
      advance
      return some (.nonNull e, optional)
    | .template _ _ =>
      if optional then failure
      r.taggedTemplate
      return some (.construct .other, optional)
    | .privateName =>
      if !opens then return none
      advance
      return some (.privateMember e, optional)
    | .word w _ =>
      if !opens then return none
      advance
      return some (.member e w true, optional)
    | _ =>
      if ← r.expressionTypeArguments then
        if ← atSign "(" then
          r.callArguments
          return some (.construct .call, optional)
        match ← peek with
        | .template _ _ =>
          r.taggedTemplate
          return some (.construct .other, optional)
        | _ => return some (.construct .other, optional)
      return none) first

/-- The accesses and calls after an expression. -/
def accessesAndCalls (r : Rules) (first : Expr) : TokenReader (Expr × Bool) :=
  loop (fun (_, optional) => do
    if ← eatSign "?." then
      if ← atAnySign ["<", "<<"] then r.typeArguments
      r.callArguments
      return some (← r.accesses true (.construct .call, true))
    else if ← atSign "(" then
      r.callArguments
      return some (← r.accesses true (.construct .call, optional))
    else return none) =<< r.accesses true (first, false)

/-- The construction of an object after the word `new`. -/
def construction (r : Rules) (primary : TokenReader Expr) : TokenReader Expr := do
  if ← eatSign "." then
    expectWord "target"
    return .construct .other
  let loads ← looksLike do
    expectWord "import"
    return !(← atSign ".")
  let callee ← primary
  match ← r.accesses false (callee, false) with
  | (.construct .other, _) => if loads then failure
  | _ => pure ()
  if ← atSign "?." then failure
  if ← atSign "(" then r.callArguments
  return .construct .call

/-- What follows the word `import`. -/
def importation (r : Rules) : TokenReader Expr := do
  if ← eatSign "." then
    if ← eatWord "meta" then return .construct .other
    if !((← eatWord "source") || (← eatWord "defer")) then failure
  expectSign "("
  let arguments ← listUntil ")" (r.expression true)
  if arguments.isEmpty || 2 < arguments.length then failure
  return .construct .other

/-- An operand without operators, accesses and calls. The number bounds how often `new` may be repeated. -/
def primary (r : Rules) : Nat → TokenReader Expr
  | 0 => failure
  | bound + 1 => do
    match ← peek with
    | .string s =>
      advance
      return .string s
    | .numeral (.number x) =>
      advance
      return .number x
    | .numeral .big =>
      advance
      return .construct .other
    | .template _ _ => r.template
    | .sign "(" => r.parenthesized
    | .sign "[" =>
      advance
      r.arrayElements
    | .sign "\x7b" =>
      advance
      r.objectMembers
    | .sign "/" | .sign "/=" => regularExpression
    | .sign "<" =>
      r.element
      advance
      return .construct .element
    | .sign "@" =>
      r.decorators
      expectWord "class"
      r.classTail
      return .construct .other
    | .word w false =>
      let beginsFunction := w = "async" && (← wordFollows "function")
      if beginsFunction then advance
      match if beginsFunction then "function" else w with
      | "null" =>
        advance
        return .null
      | "true" =>
        advance
        return .bool true
      | "false" =>
        advance
        return .bool false
      | "function" =>
        advance
        r.functionTail beginsFunction false false
        return .construct .function
      | "class" =>
        advance
        r.classTail
        return .construct .other
      | "new" =>
        advance
        r.construction (r.primary bound)
      | "this" =>
        advance
        return .construct .other
      | "super" =>
        advance
        if !(← atAnySign [".", "[", "("]) then failure
        return .construct .other
      | "import" =>
        advance
        r.importation
      | _ => return .name (← name)
    | .word _ true => return .name (← name)
    | _ => failure

/-- An operand with its accesses and calls. Where one of them is optional, all of them together are a chain. -/
def leftHandSide (r : Rules) : TokenReader Expr := do
  let start := (← get).start
  let first ← r.primary (start.length + 1)
  let (e, optional) ← r.accessesAndCalls first
  return if optional then .chain e else e

/-- An operand that may be increased or decreased. -/
def update (r : Rules) : TokenReader Expr := do
  if ← atAnySign ["++", "--"] then
    advance
    let target ← r.unary
    if !target.isSimpleTarget then failure
    return .construct .other
  let e ← r.leftHandSide
  if (← atAnySign ["++", "--"]) && !(← onNewLine) then
    if !e.isSimpleTarget then failure
    advance
    return .construct .other
  return e

/-- An operand with the unary operators before it. -/
def operand (r : Rules) : TokenReader Expr := do
  match unaryOperator? (← peek) with
  | some op =>
    advance
    return .unary op (← r.unary)
  | none =>
    if ← atWord "await" then
      if (← get).setting.awaits then
        advance
        let _ ← r.unary
        return .construct .await
      if ← operandFollows then failure
    r.update

/-- Whether an expression is a logical operation other than `??` without parentheses around it. -/
def isPlainLogical : Expr → Bool
  | .logical .and _ _ | .logical .or _ _ => true
  | _ => false

/-- Whether an expression may be raised to a power without parentheses around it. -/
def isBase : Expr → Bool
  | .unary _ _ | .construct .await => false
  | _ => true

/-- The expression of an operator and its operands, where they go together. -/
def combine (op : Infix) (left right : Expr) : Option Expr :=
  match op with
  | .binary .power => if isBase left then some (.binary .power left right) else none
  | .binary op => some (.binary op left right)
  | .logical .coalesce =>
    if isPlainLogical left || isPlainLogical right then none else some (.logical .coalesce left right)
  | .logical op => some (.logical op left right)
  | .typed => none

/-- Operators stronger than a given strength, with their operands. Only powers group to the right. -/
def operatorsAbove (r : Rules) (strength : Nat) : TokenReader Expr := do
  let first ← if (← peek) = .privateName then do
      advance
      if !(← atWord "in") then failure
      pure (Expr.construct .other)
    else r.operand
  loop (fun left => do
    widen
    match ← operator? with
    | none => return none
    | some (op, own) =>
      let stronger := match op with
        | .binary .power => strength ≤ own
        | _ => strength < own
      if !stronger then return none
      advance
      match op with
      | .typed =>
        r.type
        return some (.typed left)
      | op =>
        match combine op left (← r.operators own) with
        | some e => return some e
        | none => failure) first

/-- The body of an arrow function after its arrow. -/
def arrowBody (r : Rules) (awaits arrowType : Bool) : TokenReader Unit := inFunction awaits false do
  if ← atSign "\x7b" then r.functionBody
  else
    let _ ← r.expression arrowType

/-- Whether parentheses at the cursor hold the parameters of an arrow function: certainly, perhaps, or not. -/
inductive Likelihood where
  | certain
  | possible
  | excluded
deriving DecidableEq

/-- The words that may stand before a declared name. -/
def declarationModifiers : List String :=
  ["abstract", "accessor", "const", "declare", "default", "export", "in", "out", "private", "protected", "public",
    "readonly", "static", "override"]

/-- Tells from the first tokens after an opening parenthesis whether it opens parameters. -/
def parametersAhead : TokenReader Likelihood := do
  expectSign "("
  match ← peek with
  | .sign ")" =>
    advance
    return if ← atAnySign ["=>", ":", "\x7b"] then .certain else .excluded
  | .sign "[" | .sign "\x7b" => return .possible
  | .sign "..." => return .certain
  | .word w _ =>
    let bindable := (← atName) || w = "this"
    advance
    if declarationModifiers.contains w && (← atName) then
      return if ← atWord "as" then .excluded else .certain
    if !bindable then return .excluded
    match ← peek with
    | .sign ":" => return .certain
    | .sign "?" =>
      advance
      return if ← atAnySign [":", ",", "=", ")"] then .certain else .excluded
    | .sign s => return if [",", "=", ")"].contains s then .possible else .excluded
    | _ => return .excluded
  | _ => return .excluded

/-- The head of an arrow function with parentheses, up to and with the arrow, and whether it states a type. -/
def arrowHead (r : Rules) (awaits : Bool) : TokenReader Bool := do
  let outer := (← get).setting
  let states ← inFunction (outer.awaits || awaits) outer.yields do
    let _ ← r.parameters
    let states ← atSign ":"
    r.optionalResult
    return states
  if ← onNewLine then spoil
  expectSign "=>"
  return states

/-- An arrow function whose parameters stand in parentheses, if there is one at the cursor. -/
def parenthesizedArrow (r : Rules) (awaits arrowType : Bool) : TokenReader Bool := do
  match ← ahead parametersAhead with
  | some .certain =>
    let _ ← r.arrowHead awaits
    r.arrowBody awaits arrowType
    return true
  | some .possible =>
    match ← attempt (r.arrowHead awaits) with
    | none => return false
    | some states =>
      r.arrowBody awaits arrowType
      if !arrowType && states && !(← atSign ":") then return false
      return true
  | _ => return false

/-- An arrow function, if there is one at the cursor. -/
def arrowFunction (r : Rules) (arrowType : Bool) : TokenReader Bool := do
  let before ← get
  let takes (p : TokenReader Bool) : TokenReader Bool := do
    let found ← p
    if !found then set before
    return found
  if ← atSign "(" then return ← takes (r.parenthesizedArrow false arrowType)
  if ← atWord "async" then
    let simple ← looksLike do
      advance
      if (← onNewLine) || !(← atName) then return false
      advance
      return (← atSign "=>") && !(← onNewLine)
    if simple then
      advance
      let _ ← name
      advance
      r.arrowBody true arrowType
      return true
    let found ← takes do
      advance
      if ← onNewLine then return false
      r.parenthesizedArrow true arrowType
    if found then return true
  let simple ← looksLike do
    let _ ← name
    atSign "=>"
  if simple then
    advance
    if ← onNewLine then spoil
    advance
    r.arrowBody false arrowType
  return simple

/-- What follows the operator `yield`. -/
def yielded (r : Rules) : TokenReader Expr := do
  if !(← onNewLine) then
    let delegates ← eatSign "*"
    let ends := (← peek) = .finish || (← atWord "in") || (← atAnySign [";", "\x7d", ")", "]", ":", ","])
    if delegates || !ends then
      let _ ← r.expression true
  return .construct .other

/-- An expression without a comma at its top. -/
def assignment (r : Rules) (arrowType : Bool) : TokenReader Expr := do
  if ← atWord "yield" then
    if (← get).setting.yields then
      advance
      return ← r.yielded
    if ← operandFollows then failure
  if ← r.arrowFunction arrowType then return .construct .function
  let left ← r.operators 0
  match ← peek with
  | .sign "=" =>
    becomeTarget left
    advance
    return .assign true left (← r.expression arrowType)
  | .sign "?" =>
    advance
    let yes ← enclosed (r.expression false)
    expectSign ":"
    return .conditional left yes (← r.expression arrowType)
  | .sign s =>
    if assignmentSigns.contains s then
      if !left.isSimpleTarget then failure
      advance
      return .assign false left (← r.expression arrowType)
    return left
  | _ => return left

/-- The rules one level further up. -/
def next (r : Rules) : Rules where
  expression := r.assignment
  operators := r.operatorsAbove
  unary := r.operand
  target := r.leftHandSide
  type := r.anyType
  pattern := r.bindingPattern
  parameters := r.formalParameters
  statement := r.anyStatement
  element := r.elementMarkup

/-- The rules for texts that nest no deeper than a given number of levels. -/
def ofDepth : Nat → Rules
  | 0 => empty
  | depth + 1 => (ofDepth depth).next

end Rules

/-- The expression that a text begins with. -/
def Expr.read? (s : List Char) : Option Expr := do
  let (e, c) ← (Rules.ofDepth (4 * s.length + 8)).expressions (Cursor.ofText s Setting.outermost)
  if c.token = .invalid || c.setting.spoiled || c.setting.openDefaults ≠ 0 then none else some e

end Prebake
