import Prebake.Number.Shortest

/-!
# The written form of numbers

Numbers in expressions and markup are written with the fewest digits that read back: positionally from `1e-6` up to,
but not including, `1e21`, and with an exponent outside that range. Zero has no sign.
-/

namespace Prebake

/-- The significant digits of a decimal, without zeros at the end. -/
def Decimal.significant (d : Decimal) : List Char :=
  ((Nat.toDigits 10 d.coefficient).reverse.dropWhile (· == '0')).reverse

/-- The exponent `e` for which the decimal is `0.d₁d₂… · 10 ^ e`. -/
def Decimal.pointAt (d : Decimal) : Int :=
  (Nat.toDigits 10 d.coefficient).length + d.exponent

/-- The decimal written out with all its places. -/
def Decimal.positional (d : Decimal) : List Char :=
  let digits := d.significant
  let point := d.pointAt
  if point ≤ 0 then '0' :: '.' :: (List.replicate (-point).toNat '0' ++ digits)
  else if digits.length ≤ point then digits ++ List.replicate (point.toNat - digits.length) '0'
  else digits.take point.toNat ++ '.' :: digits.drop point.toNat

/-- The decimal with one digit before the point and an exponent that always has a sign. -/
def Decimal.scientific (d : Decimal) : List Char :=
  let mantissa := match d.significant with
    | first :: second :: more => first :: '.' :: second :: more
    | digits => digits
  let power := d.pointAt - 1
  mantissa ++ ['e', if power < 0 then '-' else '+'] ++ Nat.toDigits 10 power.natAbs

/-- The text of a number. -/
def writeNumber (x : Float) : String :=
  if x.isNaN then "NaN"
  else if x == 0.0 then "0"
  else
    let magnitude := x.abs
    let sign := if x < 0.0 then "-" else ""
    if x.isInf then sign ++ "Infinity"
    else
      let d := Shortest.ofFloat magnitude
      sign ++ String.ofList (if magnitude < 1e-6 || 1e21 ≤ magnitude then d.scientific else d.positional)

end Prebake
