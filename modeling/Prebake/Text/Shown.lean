import Prebake.Text.Printable

/-!
# Text shown in messages

A text is shown between quotes on one line: quotes, backslashes and line ends are escaped, and whatever is not
printable is shown by its code point.
-/

namespace Prebake

/-- What is shown for a character. -/
def shownChar (c : Char) : List Char :=
  match c with
  | '\x00' => ['\\', '0']
  | '\t' => ['\\', 't']
  | '\n' => ['\\', 'n']
  | '\r' => ['\\', 'r']
  | '"' => ['\\', '"']
  | '\\' => ['\\', '\\']
  | c =>
    if isPrintable c then [c]
    else '\\' :: 'u' :: '\x7b' :: (Nat.toDigits 16 c.toNat ++ ['\x7d'])

/-- A text as it is shown. -/
def shown (text : String) : String := String.ofList ('"' :: (text.toList.flatMap shownChar ++ ['"']))

end Prebake
