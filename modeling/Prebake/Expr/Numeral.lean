import Prebake.Number.Decimal
import Prebake.Text.Identifier

/-!
# Numerals in expressions

Decimal numerals with fraction and exponent, whole numbers in the bases two, eight and sixteen, and digits after a
leading zero, which are octal unless an eight or a nine is among them. Single underscores may stand between digits,
not after a leading zero. A numeral may not run into a name.
-/

namespace Prebake

/-- A numeral: a number, or a whole number of arbitrary size, whose value is never needed. -/
inductive Numeral where
  | number (x : Float)
  | big
deriving DecidableEq

namespace Numeral

/-- The digits up to the end of a run; an underscore must have a digit after it. -/
def moreDigits (isDigit : Char → Bool) : List Char → Option (List Char × List Char)
  | '_' :: c :: s => if isDigit c then (moreDigits isDigit s).map fun (ds, rest) => (c :: ds, rest) else none
  | c :: s =>
    if isDigit c then (moreDigits isDigit s).map fun (ds, rest) => (c :: ds, rest)
    else if c = '_' then none
    else some ([], c :: s)
  | [] => some ([], [])

/-- A run of at least one digit. -/
def someDigits (isDigit : Char → Bool) : List Char → Option (List Char × List Char)
  | c :: s => if isDigit c then (moreDigits isDigit s).map fun (ds, rest) => (c :: ds, rest) else none
  | [] => none

/-- An exponent, if there is one. -/
def exponent : List Char → Option (Int × List Char)
  | mark :: s =>
    if mark = 'e' || mark = 'E' then
      let (negative, s) := match s with
        | '-' :: s => (true, s)
        | '+' :: s => (false, s)
        | s => (false, s)
      (someDigits Char.isDigit s).map fun (ds, rest) =>
        (if negative then -(ofDigits 10 ds : Int) else ofDigits 10 ds, rest)
    else some (0, mark :: s)
  | [] => some (0, [])

/-- The digits after a point, of which there may be none. -/
def fraction (s : List Char) : Option (List Char × List Char) :=
  match s with
  | c :: _ => if c.isDigit then moreDigits Char.isDigit s else some ([], s)
  | [] => some ([], [])

/-- A decimal numeral after its whole part. -/
def afterWhole (whole : List Char) (s : List Char) : Option (Numeral × List Char) := do
  let (places, s) ← match s with
    | '.' :: s => fraction s
    | s => some ([], s)
  let (power, s) ← exponent s
  return (number (Decimal.ofParts whole places power).toFloat, s)

/-- A decimal numeral, or a whole number marked as one of arbitrary size. -/
def afterDigits (whole : List Char) : List Char → Option (Numeral × List Char)
  | 'n' :: s => some (big, s)
  | s => afterWhole whole s

/-- A whole number in another base, after the mark of the base. -/
def inBase (base : Nat) (isDigit : Char → Bool) (s : List Char) : Option (Numeral × List Char) := do
  let (digits, s) ← someDigits isDigit s
  match s with
  | 'n' :: s => return (big, s)
  | s => return (number (Float.ofNat (ofDigits base digits)), s)

/-- Whether a character is a digit of the base eight. -/
def isOctal (c : Char) : Bool := '0' ≤ c && c ≤ '7'

/-- Whether a character is a digit of the base two. -/
def isBinary (c : Char) : Bool := c == '0' || c == '1'

/-- Whether a character is a digit of the base sixteen. -/
def isHex (c : Char) : Bool := c.isDigit || ('a' ≤ c && c ≤ 'f') || ('A' ≤ c && c ≤ 'F')

/-- Digits after a leading zero. Only decimal ones may have a fraction or an exponent. -/
def afterZero (s : List Char) : Option (Numeral × List Char) :=
  let digits := s.takeWhile Char.isDigit
  let rest := s.dropWhile Char.isDigit
  if digits.all isOctal then some (number (Float.ofNat (ofDigits 8 digits)), rest)
  else afterWhole digits rest

/-- A numeral without regard to what follows it. -/
def readBare : List Char → Option (Numeral × List Char)
  | '0' :: 'b' :: s | '0' :: 'B' :: s => inBase 2 isBinary s
  | '0' :: 'o' :: s | '0' :: 'O' :: s => inBase 8 isOctal s
  | '0' :: 'x' :: s | '0' :: 'X' :: s => inBase 16 isHex s
  | '0' :: c :: s => if c.isDigit then afterZero (c :: s) else afterDigits ['0'] (c :: s)
  | '.' :: s => do
    let (places, s) ← someDigits Char.isDigit s
    let (power, s) ← exponent s
    return (number (Decimal.ofParts [] places power).toFloat, s)
  | s => do
    let (whole, s) ← someDigits Char.isDigit s
    afterDigits whole s

/-- A numeral, which no name and no further digit may follow directly. -/
def read (s : List Char) : Option (Numeral × List Char) :=
  match readBare s with
  | some (n, c :: rest) => if Identifier.isStart c || c.isDigit then none else some (n, c :: rest)
  | result => result

end Numeral

end Prebake
