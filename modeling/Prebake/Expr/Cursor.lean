import Prebake.Expr.Token

/-!
# Reading tokens

A `Cursor` is a place in the text of an expression together with the token there, which is proper. A `TokenReader`
takes some tokens and gives a result, or fails: the text is then no expression.
-/

namespace Prebake

/-- What has to be known about the text before a token. -/
structure Setting where
  /-- Whether the text is no expression, although reading goes on: no other way to read it is tried. -/
  spoiled : Bool
  /-- How many shorthand defaults have been read that are allowed only in patterns. -/
  openDefaults : Nat
  /-- Whether `await` is an operator here. -/
  awaits : Bool
  /-- Whether `yield` is an operator here. -/
  yields : Bool
  /-- Whether `in` is an operator here. -/
  compares : Bool
  /-- Whether a function may return here. -/
  returns : Bool

/-- What is known before the first token: outside of functions `await` is an operator, and nothing returns. -/
def Setting.outermost : Setting where
  spoiled := false
  openDefaults := 0
  awaits := true
  yields := false
  compares := true
  returns := false

/-- A place in the source: the token there, the text after it, and what has to be known to go on. -/
structure Cursor where
  token : Token
  proper : token.IsProper
  /-- Whether a line ends before the token. -/
  newline : Bool
  /-- The text from the token on. -/
  start : List Char
  /-- The text after the token. -/
  rest : List Char
  setting : Setting

/-- The cursor at the first token of a text. -/
def Cursor.ofText (s : List Char) (setting : Setting) : Cursor :=
  match Token.skipBlank .between false s with
  | none => { token := .invalid, proper := trivial, newline := false, start := s, rest := [], setting := setting }
  | some (newline, start) =>
    let read := Token.read start
    { token := read.1, proper := Token.isProper_read start, newline := newline, start := start, rest := read.2,
      setting := setting }

/-- A reader of tokens that may fail, and then has read nothing. -/
abbrev TokenReader (α : Type) : Type := StateT Cursor Option α

namespace TokenReader

/-- The token at the cursor. -/
def peek : TokenReader Token := do return (← get).token

/-- Whether a line ends before the token at the cursor. -/
def onNewLine : TokenReader Bool := do return (← get).newline

/-- Moves to the next token. -/
def advance : TokenReader Unit := modify fun c => Cursor.ofText c.rest c.setting

/-- Moves to the token at the start of another text. -/
def moveTo (s : List Char) : TokenReader Unit := modify fun c => Cursor.ofText s c.setting

/-- Changes what is known about the text so far. -/
def adjust (f : Setting → Setting) : TokenReader Unit := modify fun c => { c with setting := f c.setting }

/-- Goes on, but with the text refused in the end. -/
def spoil : TokenReader Unit := adjust fun setting => { setting with spoiled := true }

/-- Reads something for which other things hold than around it. -/
def under {α : Type} (f : Setting → Setting) (p : TokenReader α) : TokenReader α := do
  let outer := (← get).setting
  adjust f
  let a ← p
  adjust fun setting => { outer with spoiled := setting.spoiled, openDefaults := setting.openDefaults }
  return a

/-- Reads something in which `await` and `yield` are operators or not, as it is told. -/
def inFunction {α : Type} (awaits yields : Bool) : TokenReader α → TokenReader α :=
  under fun setting => { setting with awaits := awaits, yields := yields }

/-- Reads something between brackets. -/
def enclosed {α : Type} : TokenReader α → TokenReader α := under fun setting => { setting with compares := true }

/-- Takes a sign that begins with `>` together with what belongs to it. -/
def widen : TokenReader Unit := modify fun c =>
  if c.token = .sign ">" then
    let wide := Token.widen c.start
    { c with token := wide.1, proper := Token.isProper_widen c.start, rest := wide.2 }
  else c

/-- Splits a sign that begins with `<`, so that only that character is at the cursor. -/
def narrow : TokenReader Unit := modify fun c =>
  if c.token = .sign "<<" || c.token = .sign "<=" || c.token = .sign "<<=" then
    { c with token := .sign "<", proper := trivial, rest := c.start.drop 1 }
  else c

/-- Whether a certain sign is at the cursor. -/
def atSign (s : String) : TokenReader Bool := do return (← peek) = .sign s

/-- Whether one of some signs is at the cursor. -/
def atAnySign (signs : List String) : TokenReader Bool := do
  match ← peek with
  | .sign s => return signs.contains s
  | _ => return false

/-- Whether a word is at the cursor that is written without escapes. -/
def atWord (w : String) : TokenReader Bool := do return (← peek) = .word w false

/-- Takes a sign if it is at the cursor. -/
def eatSign (s : String) : TokenReader Bool := do
  if ← atSign s then
    advance
    return true
  else return false

/-- Takes a word if it is at the cursor. -/
def eatWord (w : String) : TokenReader Bool := do
  if ← atWord w then
    advance
    return true
  else return false

/-- Takes a sign that has to be at the cursor. -/
def expectSign (s : String) : TokenReader Unit := do
  if ← atSign s then advance else failure

/-- Takes a word that has to be at the cursor. -/
def expectWord (w : String) : TokenReader Unit := do
  if ← atWord w then advance else failure

/-- The result of a reader, none if it fails, without moving. -/
def ahead {α : Type} (p : TokenReader α) : TokenReader (Option α) := fun c =>
  some ((p c).map (·.1), c)

/-- Whether a reader would answer yes here. -/
def looksLike (p : TokenReader Bool) : TokenReader Bool := do return (← ahead p) = some true

/-- The result of a reader; if it fails, nothing is taken. -/
def attempt {α : Type} (p : TokenReader α) : TokenReader (Option α) := fun c =>
  match p c with
  | some (a, c) => some (some a, c)
  | none => some (none, c)

/-- Repeats a step, at most so many times, until it gives nothing new. -/
def iterate {α : Type} (step : α → TokenReader (Option α)) : Nat → α → TokenReader α
  | 0, _ => failure
  | bound + 1, a => do
    match ← step a with
    | some b => iterate step bound b
    | none => return a

/-- Repeats a step that takes at least one token until it gives nothing new. -/
def loop {α : Type} (step : α → TokenReader (Option α)) (a : α) : TokenReader α := fun c =>
  iterate step (c.start.length + 1) a c

/-- Items with commas between them up to a closing sign, which is taken too. A comma may stand after the last item. -/
def listUntil {α : Type} (close : String) (item : TokenReader α) : TokenReader (List α) := enclosed do
  let items ← loop (fun done => do
    match done with
    | (items, true) =>
      if ← atSign close then return none
      let a ← item
      return some (a :: items, ← eatSign ",")
    | (_, false) => return none) ([], true)
  expectSign close
  return items.1.reverse

/-- Takes tokens with a reader up to a closing sign, which is taken too. -/
def manyUntil (close : String) (item : TokenReader Unit) : TokenReader Unit := enclosed do
  loop (fun _ => do
    if ← atSign close then return none
    item
    return some ()) ()
  expectSign close

end TokenReader

/-- The words that are never names. -/
def reservedWords : List String :=
  ["break", "case", "catch", "class", "const", "continue", "debugger", "default", "delete", "do", "else", "enum",
    "export", "extends", "false", "finally", "for", "function", "if", "import", "in", "instanceof", "new", "null",
    "return", "super", "switch", "this", "throw", "true", "try", "typeof", "var", "void", "while", "with"]

namespace TokenReader

/-- Whether a name that can be bound is at the cursor. -/
def atName : TokenReader Bool := do
  match ← peek with
  | .word w _ => return !reservedWords.contains w
  | _ => return false

/-- Takes a name that is no reserved word and no operator here. -/
def name : TokenReader String := do
  match ← peek with
  | .word w _ =>
    if reservedWords.contains w then failure
    let setting := (← get).setting
    if (w = "await" && setting.awaits) || (w = "yield" && setting.yields) then failure
    advance
    return w
  | _ => failure

/-- Takes a name or any other word. -/
def anyWord : TokenReader String := do
  match ← peek with
  | .word w _ =>
    advance
    return w
  | _ => failure

/-- Whether the word at the cursor is followed by another word on the same line. -/
def wordFollows (w : String) : TokenReader Bool := looksLike do
  advance
  return (← atWord w) && !(← onNewLine)

/-- Whether a word, a string or a numeral follows the word at the cursor on the same line. -/
def operandFollows : TokenReader Bool := looksLike do
  advance
  if ← onNewLine then return false
  match ← peek with
  | .word _ _ | .string _ | .numeral _ => return true
  | _ => return false

/-- Whether a word of any kind is at the cursor. -/
def atAnyWord : TokenReader Bool := do
  match ← peek with
  | .word _ _ => return true
  | _ => return false

end TokenReader

end Prebake
