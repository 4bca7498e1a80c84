import Prebake.Number.Dyadic

/-!
# Decimal numerals

A numeral with a fraction and an exponent denotes `coefficient · 10 ^ exponent`. `Decimal.toFloat` is the float
nearest to it, ties to the even neighbour. `Decimal.read` takes the numerals that a text may hold when it is used as a
number.
-/

namespace Prebake

/-- The number `coefficient · 10 ^ exponent`. -/
structure Decimal where
  coefficient : Nat
  exponent : Int
deriving Repr, DecidableEq

/-- The value of a digit in bases up to sixteen. -/
def digitValue (c : Char) : Nat :=
  if c.isDigit then c.toNat - '0'.toNat
  else if 'a' ≤ c && c ≤ 'f' then c.toNat - 'a'.toNat + 10
  else if 'A' ≤ c && c ≤ 'F' then c.toNat - 'A'.toNat + 10
  else 0

/-- The number that digits denote in a base, the first digit being the highest. -/
def ofDigits (base : Nat) (digits : List Char) : Nat :=
  digits.foldl (fun n c => n * base + digitValue c) 0

namespace Decimal

/-- The numeral with these digits before and after the point and this exponent. -/
def ofParts (whole fraction : List Char) (exponent : Int) : Decimal :=
  { coefficient := ofDigits 10 (whole ++ fraction), exponent := exponent - fraction.length }

/-- The nearest float. The value lies below `10 ^ top` and not below `10 ^ (top - 1)`, so a `top` far outside the
range of floats settles the answer without computing the power. -/
def toFloat (d : Decimal) : Float :=
  let top := (Nat.toDigits 10 d.coefficient).length + d.exponent
  if d.coefficient = 0 then 0.0
  else if 310 < top then infinity
  else if top < -330 then 0.0
  else Float.ofScientific d.coefficient (d.exponent < 0) d.exponent.natAbs

/-- The exponent part of a numeral, `e` with an optional sign and at least one digit, up to the end of the text.
Nothing at all stands for the exponent zero. -/
def readExponent? : List Char → Option Int
  | [] => some 0
  | mark :: rest =>
    if mark = 'e' || mark = 'E' then
      let (negative, digits) := match rest with
        | '-' :: digits => (true, digits)
        | '+' :: digits => (false, digits)
        | digits => (false, digits)
      if digits.isEmpty || !digits.all Char.isDigit then none
      else some (if negative then -(ofDigits 10 digits : Int) else ofDigits 10 digits)
    else none

/-- A numeral without a sign: digits with an optional point among, before or after them, then the exponent. -/
def readUnsigned? (s : List Char) : Option Decimal :=
  let whole := s.takeWhile Char.isDigit
  let (fraction, rest) := match s.dropWhile Char.isDigit with
    | '.' :: more => (more.takeWhile Char.isDigit, more.dropWhile Char.isDigit)
    | more => ([], more)
  if whole.isEmpty && fraction.isEmpty then none
  else (readExponent? rest).map (ofParts whole fraction)

/-- The words that denote infinity or no number, in any letter case. -/
def readWord? (s : List Char) : Option Float :=
  match String.ofList (s.map Char.toLower) with
  | "inf" | "infinity" => some infinity
  | "nan" => some notANumber
  | _ => none

/-- A float written as a word or a numeral. -/
def readMagnitude? (s : List Char) : Option Float :=
  (readWord? s).or ((readUnsigned? s).map toFloat)

/-- A float with an optional sign. -/
def read? : List Char → Option Float
  | '-' :: s => (readMagnitude? s).map (fun x => -x)
  | '+' :: s => readMagnitude? s
  | s => readMagnitude? s

end Decimal

end Prebake
