import Prebake.Expr.Rules

/-!
# Types

Types are read and dropped: they say nothing about the value of an expression.
-/

namespace Prebake.Rules

open TokenReader

/-- The signs that may stand between the members of an object type. -/
def memberSeparator : TokenReader Unit := do
  if ← eatSign ";" then return ()
  if ← eatSign "," then return ()
  if (← atSign "\x7d") || (← onNewLine) then return ()
  failure

/-- The name of a type, with dots. -/
def dottedName : TokenReader Unit := do
  let _ ← anyWord
  loop (fun _ => do
    if ← eatSign "." then
      let _ ← anyWord
      return some ()
    else return none) ()

/-- Types with commas between them after an opening `<`. -/
def typeArguments (r : Rules) : TokenReader Unit := do
  narrow
  expectSign "<"
  let items ← listUntil ">" r.type
  if items.isEmpty then failure

/-- Type arguments, if there are any on the same line. -/
def optionalTypeArguments (r : Rules) : TokenReader Unit := do
  if ← onNewLine then return ()
  let opens ← atAnySign ["<", "<<"]
  if opens then r.typeArguments

/-- A declared type parameter. -/
def typeParameter (r : Rules) : TokenReader Unit := do
  loop (fun _ => do
    let marked ← looksLike do
      let w ← anyWord
      return ["const", "in", "out"].contains w && (← atAnyWord) && !(← atWord "extends")
    if marked then
      advance
      return some ()
    else return none) ()
  let _ ← name
  if ← eatWord "extends" then r.type
  if ← eatSign "=" then r.type

/-- Declared type parameters, if there are any. -/
def optionalTypeParameters (r : Rules) : TokenReader Unit := do
  if ← eatSign "<" then
    let items ← listUntil ">" r.typeParameter
    if items.isEmpty then failure

/-- The type of a result: a type, or what a function asserts of a parameter. -/
def resultType (r : Rules) : TokenReader Unit := do
  let asserts ← looksLike do
    expectWord "asserts"
    return (← atAnyWord) && !(← onNewLine)
  if asserts then
    advance
    let _ ← anyWord
    if ← eatWord "is" then r.type
  else
    let judges ← looksLike do
      let _ ← anyWord
      return (← atWord "is") && !(← onNewLine)
    if judges then
      advance
      advance
    r.type

/-- A type stated after a colon, if there is one. -/
def optionalAnnotation (r : Rules) : TokenReader Unit := do
  if ← eatSign ":" then r.type

/-- The type of a result after a colon, if there is one. -/
def optionalResult (r : Rules) : TokenReader Unit := do
  if ← eatSign ":" then r.resultType

/-- The parameters and the result of a function without a body. -/
def signature (r : Rules) : TokenReader Unit := do
  r.optionalTypeParameters
  let _ ← r.parameters
  r.optionalResult

/-- The brackets of an index signature, a mapped type or a computed key. -/
def bracketedKey (r : Rules) : TokenReader Unit := do
  expectSign "["
  let named ← looksLike do
    let _ ← anyWord
    return (← atSign ":") || (← atWord "in")
  if named then
    advance
    advance
    r.type
    if ← eatWord "as" then r.type
  else
    let _ ← enclosed (r.expression true)
  expectSign "]"

/-- The key of a member of an object type. -/
def memberKey (r : Rules) : TokenReader Unit := do
  match ← peek with
  | .word _ _ | .string _ | .numeral _ => advance
  | _ => r.bracketedKey

/-- Whether the word at the cursor is followed by a key. -/
def beforeKey : TokenReader Bool := looksLike do
  advance
  match ← peek with
  | .word _ _ | .string _ | .numeral _ => return true
  | .sign "[" => return true
  | _ => return false

/-- A member of an object type. -/
def typeMember (r : Rules) : TokenReader Unit := do
  if ← atAnySign ["(", "<"] then r.signature
  else
    let constructs ← looksLike do
      expectWord "new"
      atAnySign ["(", "<"]
    if constructs then
      advance
      r.signature
    else
      if ← atAnySign ["+", "-"] then advance
      loop (fun _ => do
        if ((← atWord "readonly") || (← atWord "get") || (← atWord "set")) && (← beforeKey) then
          advance
          return some ()
        else return none) ()
      r.memberKey
      if ← atAnySign ["+", "-"] then advance
      let _ ← eatSign "?"
      if ← atAnySign ["(", "<"] then r.signature else r.optionalAnnotation
  memberSeparator

/-- Whether a parenthesis opens the parameters of a function type. -/
def opensFunctionType : TokenReader Bool := looksLike do
  advance
  if ← atAnySign [")", "..."] then return true
  if ← atAnySign ["\x7b", "["] then return false
  let _ ← anyWord
  if ← atAnySign [":", ",", "?", "="] then return true
  if ← eatSign ")" then atSign "=>" else return false

/-- A member of a tuple. -/
def tupleMember (r : Rules) : TokenReader Unit := do
  let _ ← eatSign "..."
  let named ← looksLike do
    let _ ← anyWord
    let _ ← eatSign "?"
    atSign ":"
  if named then
    advance
    let _ ← eatSign "?"
    advance
  r.type
  let _ ← eatSign "?"

/-- The rest of a template type after its first part. -/
def templateType (r : Rules) : TokenReader Unit := do
  match ← peek with
  | .template _ true => advance
  | .template _ false =>
    advance
    loop (fun _ => do
      r.type
      if !(← atSign "\x7d") then failure
      match Quoted.part? ((← get).start.drop 1) with
      | none => failure
      | some part =>
        moveTo part.rest
        return if part.last then none else some ()) ()
  | _ => failure

/-- The words that are types by themselves. -/
def typeWords : List String :=
  ["any", "unknown", "string", "number", "bigint", "symbol", "boolean", "undefined", "never", "object", "intrinsic",
    "void", "null", "true", "false", "this"]

/-- A type without operators. -/
def primaryType (r : Rules) : TokenReader Unit := do
  match ← peek with
  | .string _ | .numeral _ => advance
  | .template _ _ => r.templateType
  | .sign "-" =>
    advance
    match ← peek with
    | .numeral _ => advance
    | _ => failure
  | .sign "\x7b" =>
    advance
    manyUntil "\x7d" r.typeMember
  | .sign "[" =>
    advance
    let _ ← listUntil "]" r.tupleMember
  | .sign "(" =>
    advance
    r.type
    expectSign ")"
  | .word "typeof" false =>
    advance
    dottedName
    r.optionalTypeArguments
  | .word "import" false =>
    advance
    expectSign "("
    r.type
    expectSign ")"
    if ← eatSign "." then dottedName
    r.optionalTypeArguments
  | .word w false =>
    let qualified ← looksLike do
      advance
      atSign "."
    if typeWords.contains w && !qualified then advance
    else
      dottedName
      r.optionalTypeArguments
  | .word _ true =>
    dottedName
    r.optionalTypeArguments
  | _ => failure

/-- A type with the brackets after it. -/
def postfixType (r : Rules) : TokenReader Unit := do
  r.primaryType
  loop (fun _ => do
    if ← onNewLine then return none
    if ← eatSign "[" then
      if !(← eatSign "]") then
        r.type
        expectSign "]"
      return some ()
    else return none) ()

/-- A type with the operators before it. -/
def prefixedType (r : Rules) : TokenReader Unit := do
  loop (fun _ => do
    let operator ← looksLike do
      let w ← anyWord
      match ← peek with
      | .sign s => return ["keyof", "unique", "readonly"].contains w && ["(", "[", "\x7b"].contains s
      | .word "extends" _ => return false
      | .word _ _ | .string _ | .numeral _ | .template _ _ =>
        return ["keyof", "unique", "readonly"].contains w && !(← onNewLine)
      | _ => return false
    if operator then
      advance
      return some ()
    else return none) ()
  let infers ← looksLike do
    expectWord "infer"
    atAnyWord
  if infers then
    advance
    advance
  else r.postfixType

/-- Types joined by a sign, which may also stand before the first of them. -/
def joinedTypes (joint : String) (part : TokenReader Unit) : TokenReader Unit := do
  let _ ← eatSign joint
  part
  loop (fun _ => do
    if ← eatSign joint then
      part
      return some ()
    else return none) ()

/-- A type that is no function type and no condition. -/
def unionType (r : Rules) : TokenReader Unit := joinedTypes "|" (joinedTypes "&" r.prefixedType)

/-- A function type. -/
def functionType (r : Rules) : TokenReader Unit := do
  r.optionalTypeParameters
  let _ ← r.parameters
  expectSign "=>"
  r.resultType

/-- A type. -/
def anyType (r : Rules) : TokenReader Unit := do
  let constructs ← looksLike do
    let _ ← eatWord "abstract"
    expectWord "new"
    atAnySign ["(", "<"]
  if constructs then
    let _ ← eatWord "abstract"
    advance
    r.functionType
  else if (← atSign "<") || ((← atSign "(") && (← opensFunctionType)) then r.functionType
  else
    r.unionType
    if (← atWord "extends") && !(← onNewLine) then
      advance
      r.unionType
      expectSign "?"
      r.type
      expectSign ":"
      r.type

end Prebake.Rules
