import Prebake.Json.Basic
import Prebake.Json.Fault
import Prebake.Number.Written

/-!
# Numbers in JSON texts

A whole number of at most 64 bits is kept exactly. Any other number becomes a float: the digits that fit in 64 bits
make a float, which is then multiplied or divided by a power of ten. The result may therefore differ from the nearest
float in its last place.
-/

namespace Prebake.Json

/-- The largest number of 64 bits. -/
def maxWord : Nat := Nat.pow 2 64 - 1

/-- Appends digits to a number as long as it fits in 64 bits, and gives the digits left over. -/
def absorbDigits (n : Nat) : List Char → Nat × List Char
  | [] => (n, [])
  | c :: digits =>
    let more := n * 10 + digitValue c
    if more ≤ maxWord then absorbDigits more digits else (n, c :: digits)

/-- A power of ten as a float. -/
def powerOfTen (n : Nat) : Float := Float.ofScientific 1 false n

/-- A number of 64 bits times a power of ten. The divisor of the largest power is applied by itself first, and what is
then still below the range of floats is zero. -/
def scale (n : Nat) (exponent : Int) : Except Fault Float :=
  let x := Float.ofNat n
  if n = 0 then .ok 0.0
  else if 308 < exponent then .error .numberOutOfRange
  else if 0 ≤ exponent then
    let scaled := x * powerOfTen exponent.toNat
    if scaled.isInf then .error .numberOutOfRange else .ok scaled
  else if -308 ≤ exponent then .ok (x / powerOfTen exponent.natAbs)
  else if -616 ≤ exponent then .ok (x / powerOfTen 308 / powerOfTen (exponent + 308).natAbs)
  else .ok 0.0

/-- The exponent of a number after its mark. -/
def readExponent (s : List Char) : Except Fault (Int × List Char) :=
  let (negative, s) := match s with
    | '+' :: s => (false, s)
    | '-' :: s => (true, s)
    | s => (false, s)
  match s with
  | [] => .error (.ended .value)
  | c :: _ =>
    if c.isDigit then
      let n : Int := ofDigits 10 (s.takeWhile Char.isDigit)
      .ok (if negative then -n else n, s.dropWhile Char.isDigit)
    else .error .invalidNumber

/-- A number whose digits `n` have been read already, up to the power of ten that they stand for. -/
def finishFloat (negative : Bool) (n : Nat) (exponent : Int) (s : List Char) : Except Fault (Json × List Char) := do
  let (power, s) ← match s with
    | 'e' :: s | 'E' :: s => readExponent s
    | s => .ok (0, s)
  let x ← scale n (exponent + power)
  return (.decimal (if negative then -x else x), s)

/-- The digits after the point of a number. -/
def readFraction (negative : Bool) (n : Nat) (exponent : Int) (s : List Char) : Except Fault (Json × List Char) :=
  let digits := s.takeWhile Char.isDigit
  let rest := s.dropWhile Char.isDigit
  if digits.isEmpty then .error (if rest.isEmpty then .ended .value else .invalidNumber)
  else
    let (more, unread) := absorbDigits n digits
    finishFloat negative more (exponent - (digits.length - unread.length : Nat)) rest

/-- A whole number as a JSON value, if it is one of at most 64 bits. The negative zero is none. -/
def wholeOrFloat (negative : Bool) (n : Nat) : Json :=
  if !negative then .whole n
  else if n = 0 || Nat.pow 2 63 < n then .decimal (-(Float.ofNat n))
  else .whole (-n)

/-- A number after its sign. -/
def readNumber (negative : Bool) (s : List Char) : Except Fault (Json × List Char) :=
  match s with
  | [] => .error (.ended .value)
  | c :: after =>
    if !c.isDigit then .error .invalidNumber
    else if c = '0' && after.head?.any Char.isDigit then .error .invalidNumber
    else
      let (n, unread) := absorbDigits 0 (s.takeWhile Char.isDigit)
      match s.dropWhile Char.isDigit with
      | '.' :: rest => readFraction negative n unread.length rest
      | rest =>
        if unread.isEmpty && !(rest.head?.any fun c => c = 'e' || c = 'E') then .ok (wholeOrFloat negative n, rest)
        else finishFloat negative n unread.length rest

/-- The text of a float in JSON: positional for exponents from -5 to 16, always with a point or an exponent. -/
def writeFloat (x : Float) : String :=
  let sign := if x.toBits ≥ 0x8000000000000000 then "-" else ""
  if x == 0.0 then sign ++ "0.0"
  else
    let d := Shortest.ofFloat x.abs
    let digits := d.significant
    let point := d.pointAt
    let text :=
      if -5 < point && point ≤ 16 then
        if digits.length ≤ point then d.positional ++ ['.', '0'] else d.positional
      else
        let mantissa := match digits with
          | first :: second :: more => first :: '.' :: second :: more
          | digits => digits
        mantissa ++ 'e' :: (toString (point - 1)).toList
    sign ++ String.ofList text

end Prebake.Json
