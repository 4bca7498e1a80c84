import Prebake.Expr.Types

/-!
# Functions and classes

Parameters, bodies and members of functions and classes are read and dropped: a function has no value at build time.
Statements are read as far as the bodies of functions need them.
-/

namespace Prebake.Rules

open TokenReader

/-- A value after an equals sign, if there is one. -/
def optionalDefault (r : Rules) : TokenReader Unit := do
  if ← eatSign "=" then
    let _ ← r.expression true

/-- The key of a property between brackets, or as a word, a string or a numeral. -/
def propertyKey (r : Rules) : TokenReader Unit := do
  match ← peek with
  | .word _ _ | .string _ | .numeral _ => advance
  | .sign "[" =>
    advance
    let _ ← enclosed (r.expression true)
    expectSign "]"
  | _ => failure

/-- A pattern with an optional default. -/
def patternItem (r : Rules) : TokenReader Unit := do
  r.pattern
  r.optionalDefault

/-- What follows the dots of the last part of a pattern, which has no default, before a closing sign. -/
def patternRest (r : Rules) (close : String) : TokenReader Unit := do
  r.pattern
  if ← atSign "=" then spoil
  r.optionalDefault
  if !(← atSign close) then spoil

/-- A property of an object pattern. What is left over goes to a name. -/
def patternProperty (r : Rules) : TokenReader Unit := do
  if ← eatSign "..." then
    if !(← atName) then spoil
    r.patternRest "\x7d"
  else
    let bare ← atName
    r.propertyKey
    if ← eatSign ":" then r.patternItem
    else if bare then r.optionalDefault
    else failure

/-- An item of an array pattern with the comma after it. What is left over goes to the last one. -/
def patternElement (r : Rules) : TokenReader Unit := do
  if ← eatSign "," then return ()
  if ← eatSign "..." then r.patternRest "]" else r.patternItem
  if !(← atSign "]") then expectSign ","

/-- A name, or a pattern of names, that is bound. -/
def bindingPattern (r : Rules) : TokenReader Unit := do
  match ← peek with
  | .sign "\x7b" =>
    advance
    let _ ← listUntil "\x7d" r.patternProperty
  | .sign "[" =>
    advance
    manyUntil "]" r.patternElement
  | _ =>
    let _ ← name

/-- The words that may stand before a parameter. -/
def parameterModifiers : List String := ["public", "private", "protected", "readonly", "override"]

/-- A parameter of a function. Nothing may follow the one that takes all arguments that are left. -/
def parameter (r : Rules) : TokenReader Parameter := do
  loop (fun _ => do
    let modified ← looksLike do
      let w ← anyWord
      return parameterModifiers.contains w && ((← atName) || (← atAnySign ["\x7b", "["]))
    if modified then
      advance
      return some ()
    else return none) ()
  if ← eatSign "..." then
    r.pattern
    r.optionalAnnotation
    if ← atSign ")" then return .rest else failure
  if !(← eatWord "this") then r.pattern
  let _ ← eatSign "?"
  r.optionalAnnotation
  let given ← atSign "="
  r.optionalDefault
  return if given then .optional else .plain

/-- The parameters of a function in their parentheses. -/
def formalParameters (r : Rules) : TokenReader (List Parameter) := do
  expectSign "("
  listUntil ")" r.parameter

/-- Statements in braces. -/
def block (r : Rules) : TokenReader Unit := do
  expectSign "\x7b"
  manyUntil "\x7d" (r.statement true)

/-- The statements of a function in braces. -/
def functionBody (r : Rules) : TokenReader Unit := under (fun setting => { setting with returns := true }) r.block

/-- The parameters of a function, the type of its result and its body. -/
def functionRest (r : Rules) (awaits yields : Bool) : TokenReader (List Parameter) := inFunction awaits yields do
  r.optionalTypeParameters
  let parameters ← r.parameters
  r.optionalResult
  r.functionBody
  return parameters

/-- Whether a method may have some parameters: one marked `get` takes none, and one marked `set` the value alone. -/
def admitsParameters (marks : List String) (parameters : List Parameter) : Bool :=
  (!marks.contains "get" || parameters.isEmpty) && (!marks.contains "set" || parameters = [.plain])

/-- What follows the name of a method that has some words before its name. -/
def methodRest (r : Rules) (marks : List String) (yields : Bool) : TokenReader Unit := do
  let parameters ← r.functionRest (marks.contains "async") yields
  if !admitsParameters marks parameters then failure

/-- A function after the word `function`. The name of a declared function belongs to what is around it. -/
def functionTail (r : Rules) (awaits declared alone : Bool) : TokenReader Unit := do
  let yields ← eatSign "*"
  if alone && yields then failure
  if ← atName then
    let _ ← if declared then name else inFunction awaits yields name
  else if declared then failure
  let _ ← r.functionRest awaits yields

/-- The decorators before a class or one of its members. -/
def decorators (r : Rules) : TokenReader Unit :=
  loop (fun _ => do
    if ← eatSign "@" then
      let _ ← r.target
      return some ()
    else return none) ()

/-- The words that may stand before a member of a class. -/
def memberModifiers : List String :=
  ["static", "async", "get", "set", "readonly", "public", "private", "protected", "override", "declare", "abstract",
    "accessor"]

/-- The end of a field: a semicolon, a new line or the end of the class. -/
def endOfStatement : TokenReader Unit := do
  if ← eatSign ";" then return ()
  if (← atSign "\x7d") || (← onNewLine) || (← peek) = .finish then return ()
  failure

/-- Whether the word at the cursor says something about the member of a class that follows. -/
def marksMember : TokenReader Bool := looksLike do
  let w ← anyWord
  if !memberModifiers.contains w then return false
  let freely := ["static", "get", "set"].contains w
  if (← onNewLine) && !freely then return false
  match ← peek with
  | .word _ _ | .string _ | .numeral _ | .privateName => return true
  | .sign s => return s = "[" || s = "*"
  | _ => return false

/-- The name of a member of a class, if it is no numeral and not computed. -/
def memberName (r : Rules) : TokenReader (Option String) := do
  let here ← get
  match here.token with
  | .privateName =>
    advance
    return some (String.ofList (here.start.take (here.start.length - here.rest.length)))
  | .word w _ | .string w =>
    advance
    return some w
  | _ =>
    r.propertyKey
    return none

/-- Whether a class may have a member of a name. Nothing static is called `prototype`, and only a static method or one
without marks is called `constructor`. -/
def admitsMember (marks : List String) (method yields : Bool) : String → Bool
  | "#constructor" => false
  | "prototype" => !marks.contains "static"
  | "constructor" =>
    method && (marks.contains "static" || !(yields || ["get", "set", "async"].any (marks.contains ·)))
  | _ => true

/-- A member of a class. -/
def classMember (r : Rules) : TokenReader Unit := do
  if ← eatSign ";" then return ()
  r.decorators
  let initializes ← looksLike do
    expectWord "static"
    atSign "\x7b"
  if initializes then
    advance
    inFunction true false r.block
    return ()
  let marks ← loop (fun marks => do
    if ← marksMember then return some ((← anyWord) :: marks) else return none) []
  let yields ← eatSign "*"
  let name ← r.memberName
  if ← atAnySign ["?", "!"] then advance
  let method := (← atAnySign ["(", "<"]) || marks.contains "get" || marks.contains "set"
  if !name.all (admitsMember marks method yields) then failure
  if method then r.methodRest marks yields
  else
    r.optionalAnnotation
    inFunction false false r.optionalDefault
    endOfStatement

/-- A class after the word `class`. -/
def classTail (r : Rules) : TokenReader Unit := do
  if (← atName) && !(← looksLike do
      expectWord "implements"
      atAnyWord) then advance
  r.optionalTypeParameters
  if ← eatWord "extends" then
    let _ ← r.unary
    r.optionalTypeArguments
  if ← eatWord "implements" then
    joinedTypes "," r.type
  expectSign "\x7b"
  manyUntil "\x7d" r.classMember

/-- A condition in parentheses. -/
def condition (r : Rules) : TokenReader Unit := do
  expectSign "("
  let _ ← r.expressions
  expectSign ")"

/-- A declared name or pattern, and whether it has the value that it needs: patterns and constants need one. -/
def declarator (r : Rules) (constant : Bool) : TokenReader Bool := do
  let needed := constant || (← atAnySign ["\x7b", "["])
  r.pattern
  let _ ← eatSign "!"
  r.optionalAnnotation
  let given ← atSign "="
  r.optionalDefault
  return given || !needed

/-- The names that a declaration binds, and whether all of them have the values that they need. -/
def declarators (r : Rules) (constant : Bool) : TokenReader Bool := do
  let first ← r.declarator constant
  loop (fun settled => do
    if ← eatSign "," then
      let next ← r.declarator constant
      return some (settled && next)
    else return none) first

/-- Whether a declaration of names starts here. -/
def atDeclaration : TokenReader Bool := do
  if (← atWord "var") || (← atWord "const") then return true
  looksLike do
    expectWord "let"
    return (← atName) || (← atAnySign ["\x7b", "["])

/-- What comes first in the head of a loop, and whether it may be followed by a condition. What does not compare may
be followed by what the loop runs over, as far as it is a target. -/
def loopStart (r : Rules) : TokenReader Bool := under (fun setting => { setting with compares := false }) do
  if ← atSign ";" then return true
  if ← atDeclaration then
    let constant ← atWord "const"
    advance
    r.declarators constant
  else
    if (← atWord "async") && (← wordFollows "of") then failure
    let start ← r.expressions
    if (← atWord "of") || (← atWord "in") then becomeTarget start
    return true

/-- The head of a loop between its parentheses. -/
def loopHead (r : Rules) : TokenReader Unit := do
  let settled ← r.loopStart
  if ← eatWord "of" then
    let _ ← r.expression true
  else if ← eatWord "in" then
    let _ ← r.expressions
  else
    if !settled then failure
    expectSign ";"
    if !(← atSign ";") then
      let _ ← r.expressions
    expectSign ";"
    if !(← atSign ")") then
      let _ ← r.expressions

/-- A case of a choice with its statements. -/
def switchCase (r : Rules) : TokenReader Unit := do
  if !(← eatWord "default") then
    expectWord "case"
    let _ ← r.expressions
  expectSign ":"
  loop (fun _ => do
    if (← atSign "\x7d") || (← atWord "case") || (← atWord "default") then return none
    r.statement true
    return some ()) ()

/-- The handlers after a block that is tried. -/
def handlers (r : Rules) : TokenReader Unit := do
  let caught ← eatWord "catch"
  if caught then
    if ← eatSign "(" then
      r.pattern
      r.optionalAnnotation
      expectSign ")"
    r.block
  if ← eatWord "finally" then r.block
  else if !caught then failure

/-- A statement that begins with a word of its own. The flag says whether it stands in a list of statements. -/
def keywordStatement (r : Rules) (listed : Bool) (w : String) : TokenReader Unit := do
  match w with
  | "if" =>
    advance
    r.condition
    r.statement false
    if ← eatWord "else" then r.statement false
  | "while" | "with" =>
    advance
    r.condition
    r.statement false
  | "do" =>
    advance
    r.statement false
    expectWord "while"
    r.condition
    let _ ← eatSign ";"
  | "for" =>
    advance
    if ← atWord "await" then
      if !(← get).setting.awaits then failure
      advance
    expectSign "("
    r.loopHead
    expectSign ")"
    r.statement false
  | "return" =>
    if !(← get).setting.returns then failure
    advance
    let ends := (← atAnySign [";", "\x7d"]) || (← onNewLine)
    if !ends then
      let _ ← r.expressions
    endOfStatement
  | "throw" =>
    advance
    if ← onNewLine then failure
    let _ ← r.expressions
    endOfStatement
  | "break" | "continue" =>
    advance
    if (← atName) && !(← onNewLine) then advance
    endOfStatement
  | "switch" =>
    advance
    r.condition
    expectSign "\x7b"
    manyUntil "\x7d" r.switchCase
  | "try" =>
    advance
    r.block
    r.handlers
  | "function" =>
    advance
    r.functionTail false true !listed
  | "class" =>
    if !listed then failure
    advance
    r.classTail
  | "debugger" =>
    advance
    endOfStatement
  | _ =>
    let _ ← r.expressions
    endOfStatement

/-- A declaration of names after its first word. -/
def declaration (r : Rules) (constant : Bool) : TokenReader Unit := do
  if !(← r.declarators constant) then failure
  endOfStatement

/-- A statement, which stands in a list of statements or alone. -/
def anyStatement (r : Rules) (listed : Bool) : TokenReader Unit := do
  if ← eatSign ";" then return ()
  if ← atSign "\x7b" then r.block
  else if ← atDeclaration then
    let constant ← atWord "const"
    if !listed && !(← atWord "var") then failure
    advance
    r.declaration constant
  else
    let labelled ← looksLike do
      let _ ← name
      atSign ":"
    if labelled then
      advance
      advance
      r.statement false
    else if (← atWord "async") && (← wordFollows "function") then
      if !listed then failure
      advance
      advance
      r.functionTail true true false
    else
      match ← peek with
      | .word w false => r.keywordStatement listed w
      | _ =>
        let _ ← r.expressions
        endOfStatement

end Prebake.Rules
