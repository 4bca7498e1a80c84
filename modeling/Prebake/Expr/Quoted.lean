import Prebake.Expr.Numeral
import Prebake.Text.Blank

/-!
# Quoted text in expressions

String literals and the literal parts of templates, with their escapes. An escaped surrogate joins the one after it to
one character. Where it stands alone it is written as the replacement character followed by its four digits, and then
every replacement character of the same literal is written with its digits too.
-/

namespace Prebake.Quoted

/-- A character of a literal, or a surrogate without a partner. -/
inductive Unit16 where
  | char (c : Char)
  | lone (n : Nat)
deriving DecidableEq

/-- The text of a literal. -/
def toText (units : List Unit16) : String :=
  let hex (n : Nat) : List Char :=
    let digits := Nat.toDigits 16 n
    '\uFFFD' :: (List.replicate (4 - digits.length) '0' ++ digits)
  let anyLone := units.any fun u => match u with
    | .lone _ => true
    | .char _ => false
  String.ofList (units.flatMap fun u => match u with
    | .char c => if anyLone && c = '\uFFFD' then hex 0xFFFD else [c]
    | .lone n => hex n)

/-- Whether a number is that of half a character, and of no character by itself. -/
def isSurrogate (n : Nat) : Bool := 0xD800 ≤ n && n ≤ 0xDFFF

/-- The unit with a code point that may be a surrogate. -/
def ofCodePoint (n : Nat) : Unit16 := if isSurrogate n then .lone n else .char (Char.ofNat n)

/-- Exactly so many hexadecimal digits at the start. -/
def fixedHex? (count : Nat) (s : List Char) : Option Nat :=
  let digits := s.take count
  if digits.length = count && digits.all Numeral.isHex then some (ofDigits 16 digits) else none

/-- A code point in braces, after the opening one, with the number of characters up to and with the closing one. -/
def braced? (s : List Char) : Option (Nat × Nat) :=
  let digits := s.takeWhile Numeral.isHex
  let n := ofDigits 16 digits
  match s.dropWhile Numeral.isHex with
  | '}' :: _ => if digits.isEmpty || 0x10FFFF < n then none else some (n, digits.length + 1)
  | _ => none

/-- The escape after `\u`, with the number of characters it takes. -/
def unicode? : List Char → Option (Unit16 × Nat)
  | '{' :: s => (braced? s).map fun (n, taken) => (ofCodePoint n, taken + 1)
  | s => do
    let high ← fixedHex? 4 s
    match s.drop 4 with
    | '\\' :: 'u' :: more =>
      match fixedHex? 4 more with
      | some low =>
        if 0xD800 ≤ high && high < 0xDC00 && 0xDC00 ≤ low && low < 0xE000 then
          return (.char (Char.ofNat (0x10000 + (high - 0xD800) * 0x400 + (low - 0xDC00))), 10)
        else return (ofCodePoint high, 4)
      | none => return (ofCodePoint high, 4)
    | _ => return (ofCodePoint high, 4)

/-- Up to three octal digits for a number below 256. -/
def octalDigits (s : List Char) : List Char :=
  let limit := match s with
    | c :: _ => if c ≤ '3' then 3 else 2
    | [] => 0
  (s.take limit).takeWhile Numeral.isOctal

/-- The escape after a backslash, with the number of characters it takes. A template has no octal escapes. -/
def escape? (inTemplate : Bool) : List Char → Option (List Unit16 × Nat)
  | [] => none
  | '\r' :: '\n' :: _ => some ([], 2)
  | c :: s =>
    let plain (d : Char) : Option (List Unit16 × Nat) := some ([.char d], 1)
    if isLineEnd c then some ([], 1)
    else match c with
      | 'b' => plain '\x08'
      | 'f' => plain '\x0C'
      | 'n' => plain '\n'
      | 'r' => plain '\r'
      | 't' => plain '\t'
      | 'v' => plain '\x0B'
      | 'x' => (fixedHex? 2 s).map fun n => ([.char (Char.ofNat n)], 3)
      | 'u' => (unicode? s).map fun (unit, taken) => ([unit], taken + 1)
      | _ =>
        if inTemplate && c.isDigit then
          if c = '0' && !(s.head?.any Char.isDigit) then plain '\x00' else none
        else if Numeral.isOctal c then
          let digits := octalDigits (c :: s)
          some ([.char (Char.ofNat (ofDigits 8 digits))], digits.length)
        else plain c

/-- The body of a string literal up to its closing quote, and what follows. The number says how many characters belong
to an escape that has been read already. -/
def stringBody (quote : Char) : Nat → List Char → Option (List Unit16 × List Char)
  | _, [] => none
  | skip + 1, _ :: s => stringBody quote skip s
  | 0, c :: s =>
    if c = quote then some ([], s)
    else if c = '\n' || c = '\r' then none
    else if c = '\\' then do
      let (units, taken) ← escape? false s
      let (more, rest) ← stringBody quote taken s
      return (units ++ more, rest)
    else (stringBody quote 0 s).map fun (more, rest) => (.char c :: more, rest)

/-- The string literal after its opening quote. -/
def string? (quote : Char) (s : List Char) : Option (String × List Char) :=
  (stringBody quote 0 s).map fun (units, rest) => (toText units, rest)

/-- A literal part of a template. A part with a bad escape has no text. -/
structure Part where
  text : Option String
  /-- Whether the template ends with this part. -/
  last : Bool
  rest : List Char

/-- The characters of a template up to the next hole or the end, whether all escapes among them were good, and what
follows. -/
def templateBody : Nat → List Char → Option (Option (List Unit16) × Bool × List Char)
  | _, [] => none
  | skip + 1, _ :: s => templateBody skip s
  | 0, '\x60' :: s => some (some [], true, s)
  | 0, '$' :: '{' :: s => some (some [], false, s)
  | 0, '\r' :: '\n' :: s => (templateBody 0 s).map fun (more, tail) => (more.map (.char '\n' :: ·), tail)
  | 0, c :: s =>
    if c = '\\' then
      match escape? true s with
      | some (units, taken) => (templateBody taken s).map fun (more, tail) => (more.map (units ++ ·), tail)
      | none => (templateBody 1 s).map fun (_, tail) => (none, tail)
    else (templateBody 0 s).map fun (more, tail) => (more.map (.char (if c = '\r' then '\n' else c) :: ·), tail)

/-- The part of a template that starts here. -/
def part? (s : List Char) : Option Part :=
  (templateBody 0 s).map fun (units, last, rest) => { text := units.map toText, last := last, rest := rest }

end Prebake.Quoted
