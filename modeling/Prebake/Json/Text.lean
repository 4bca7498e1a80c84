import Prebake.Json.Fault
import Prebake.Number.Decimal

/-!
# Strings in JSON texts

`Text.read` takes a string apart and `Text.write` puts one together: only the quote, the backslash and the control
characters are escaped.
-/

namespace Prebake.Json.Text

/-- The number that four hexadecimal digits denote. The text has to hold four more bytes. -/
def hex (s : List Char) : Except Fault Nat :=
  let digits := s.take 4
  let isHex (c : Char) : Bool := c.isDigit || ('a' ≤ c && c ≤ 'f') || ('A' ≤ c && c ≤ 'F')
  if digits.foldl (fun bytes c => bytes + c.utf8Size) 0 < 4 then .error (.ended .string)
  else if digits.all isHex then .ok (ofDigits 16 digits)
  else .error .invalidEscape

/-- The character that `\u` and what follows stand for, with the number of characters after the `u` that it takes. -/
def unicode (s : List Char) : Except Fault (Char × Nat) := do
  let high ← hex s
  if 0xDC00 ≤ high && high ≤ 0xDFFF then .error .loneSurrogate
  else if high < 0xD800 || 0xDBFF < high then return (Char.ofNat high, 4)
  else match s.drop 4 with
    | [] => .error (.ended .string)
    | '\\' :: more =>
      match more with
      | [] => .error (.ended .string)
      | 'u' :: more =>
        let low ← hex more
        if low < 0xDC00 || 0xDFFF < low then .error .loneSurrogate
        else return (Char.ofNat (0x10000 + (high - 0xD800) * 0x400 + (low - 0xDC00)), 10)
      | _ => .error .unpairedSurrogate
    | _ => .error .unpairedSurrogate

/-- The character that an escape stands for, with the number of characters after the backslash that it takes. -/
def escape : List Char → Except Fault (Char × Nat)
  | [] => .error (.ended .string)
  | '"' :: _ => .ok ('"', 1)
  | '\\' :: _ => .ok ('\\', 1)
  | '/' :: _ => .ok ('/', 1)
  | 'b' :: _ => .ok ('\x08', 1)
  | 'f' :: _ => .ok ('\x0C', 1)
  | 'n' :: _ => .ok ('\n', 1)
  | 'r' :: _ => .ok ('\r', 1)
  | 't' :: _ => .ok ('\t', 1)
  | 'u' :: s => do
    let (c, taken) ← unicode s
    return (c, taken + 1)
  | _ => .error .invalidEscape

/-- The number of characters after the backslash that an escape takes, in a string that nobody asked for: surrogates
may stand alone in it. -/
def skippedEscape : List Char → Except Fault Nat
  | [] => .error (.ended .string)
  | 'u' :: s => do
    let _ ← hex s
    return 5
  | c :: _ => if "\"\\/bfnrt".toList.contains c then .ok 1 else .error .invalidEscape

/-- The control characters, which a string may hold only as escapes. -/
def isControl (c : Char) : Bool := c.toNat < 0x20

/-- The characters of a string up to its closing quote, and what follows. The number says how many characters belong
to an escape that has been read already. -/
def body : Nat → List Char → Except Fault (List Char × List Char)
  | _, [] => .error (.ended .string)
  | skip + 1, _ :: s => body skip s
  | 0, c :: s =>
    if c = '"' then .ok ([], s)
    else if c = '\\' then do
      let (d, taken) ← escape s
      let (more, rest) ← body taken s
      return (d :: more, rest)
    else if isControl c then .error .controlCharacter
    else do
      let (more, rest) ← body 0 s
      return (c :: more, rest)

/-- What follows a string that nobody asked for. -/
def skipBody : Nat → List Char → Except Fault (List Char)
  | _, [] => .error (.ended .string)
  | skip + 1, _ :: s => skipBody skip s
  | 0, c :: s =>
    if c = '"' then .ok s
    else if c = '\\' then do
      skipBody (← skippedEscape s) s
    else if isControl c then .error .controlCharacter
    else skipBody 0 s

/-- The string after an opening quote, and what follows it. -/
def read (s : List Char) : Except Fault (String × List Char) := do
  let (chars, rest) ← body 0 s
  return (String.ofList chars, rest)

/-- A hexadecimal digit. -/
def hexDigit (n : Nat) : Char := if n < 10 then Char.ofNat (48 + n) else Char.ofNat (87 + n)

/-- A character inside a written string. -/
def writeChar (c : Char) : List Char :=
  match c with
  | '"' => ['\\', '"']
  | '\\' => ['\\', '\\']
  | '\x08' => ['\\', 'b']
  | '\t' => ['\\', 't']
  | '\n' => ['\\', 'n']
  | '\x0C' => ['\\', 'f']
  | '\r' => ['\\', 'r']
  | c => if isControl c then ['\\', 'u', '0', '0', hexDigit (c.toNat / 16), hexDigit (c.toNat % 16)] else [c]

/-- A string with its quotes. -/
def write (s : String) : List Char := '"' :: (s.toList.flatMap writeChar ++ ['"'])

end Prebake.Json.Text
