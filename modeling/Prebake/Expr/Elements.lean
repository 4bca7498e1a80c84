import Prebake.Expr.Types

/-!
# Element markup inside expressions

Elements and fragments are read and dropped: they are instances of their own, not values. An element ends with the
name it began with.
-/

namespace Prebake.Rules

open TokenReader

/-- The characters that may follow in the name of an element or an attribute. -/
def isNameTail (c : Char) : Bool := Identifier.isContinue c || c = '-'

/-- A word with the hyphens and further letters that markup allows in it. -/
def hyphenatedWord : TokenReader String := do
  match ← peek with
  | .word w _ =>
    let rest := (← get).rest
    let tail := rest.takeWhile isNameTail
    moveTo (rest.dropWhile isNameTail)
    return w ++ String.ofList tail
  | _ => failure

/-- The name of an attribute, which may have a name space. -/
def attributeWord : TokenReader String := do
  let first ← hyphenatedWord
  if ← eatSign ":" then return first ++ ":" ++ (← hyphenatedWord)
  return first

/-- The name of an element: words with dots between them, or a word that may have a name space. -/
def elementWord : TokenReader String := do
  let first ← attributeWord
  loop (fun done => do
    if ← eatSign "." then return some (done ++ "." ++ (← anyWord))
    return none) first

/-- An expression in braces, after the opening one. -/
def braced (r : Rules) (emptyAllowed : Bool) : TokenReader Unit := do
  if emptyAllowed && (← atSign "\x7d") then return ()
  let _ ← eatSign "..."
  let _ ← enclosed r.expressions
  if !(← atSign "\x7d") then failure

/-- Text in quotes in front of the cursor; a backslash in it is an ordinary character. -/
def quotedText (s : List Char) : TokenReader Unit := do
  match s with
  | quote :: rest =>
    match rest.dropWhile (· != quote) with
    | _ :: after => moveTo after
    | [] => failure
  | [] => failure

/-- The value of an attribute after its equals sign, of which only the place in the text is known yet. -/
def attributeValue (r : Rules) : TokenReader Unit := do
  match Token.skipBlank .between false (← get).rest with
  | none => failure
  | some (_, s) =>
    match s with
    | '"' :: _ | '\'' :: _ => quotedText s
    | '\x7b' :: rest =>
      moveTo rest
      r.braced false
      advance
    | '<' :: _ =>
      moveTo s
      r.element
      advance
    | _ => failure

/-- The attributes of an element. -/
def attributes (r : Rules) : TokenReader Unit := do
  loop (fun _ => do
    if ← atSign "\x7b" then
      advance
      expectSign "..."
      let _ ← enclosed (r.expression true)
      expectSign "\x7d"
      return some ()
    else if ← atAnyWord then
      let _ ← attributeWord
      if ← atSign "=" then r.attributeValue
      return some ()
    else return none) ()

/-- What stands between the tags of an element, from a place in the text up to the next `</`, which is taken too. -/
def elementChildren (r : Rules) (s : List Char) : TokenReader Unit := do
  let _ ← loop (fun s => do
    match s.dropWhile fun c => !"\x7b\x7d<>".toList.contains c with
    | '\x7b' :: rest =>
      moveTo rest
      r.braced true
      return some (← get).rest
    | '<' :: rest =>
      moveTo ('<' :: rest)
      let closes ← looksLike do
        advance
        atSign "/"
      if closes then
        advance
        advance
        return none
      else
        r.element
        return some (← get).rest
    | _ => failure) s
  return ()

/-- The sign `>` at the cursor, which is left there: what follows it is not always made of tokens. -/
def tagEnd : TokenReader Unit := do
  if !(← atSign ">") then failure

/-- An element or a fragment up to its last sign, which is left at the cursor. -/
def elementMarkup (r : Rules) : TokenReader Unit := do
  expectSign "<"
  if ← atSign ">" then
    r.elementChildren (← get).rest
    tagEnd
  else
    let opened ← elementWord
    r.optionalTypeArguments
    r.attributes
    if ← eatSign "/" then tagEnd
    else
      tagEnd
      r.elementChildren (← get).rest
      let closed ← elementWord
      if closed != opened then failure
      tagEnd

end Prebake.Rules
