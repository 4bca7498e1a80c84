/-!
# Floats as dyadic numbers

A finite float is an integer times a power of two. `Dyadic.ofFloat` reads that form off the bits and
`Dyadic.toFloat` writes it back, so that remainders and decimal digits can be computed with whole numbers.
-/

namespace Prebake

/-- The number `± mantissa · 2 ^ exponent`. -/
structure Dyadic where
  negative : Bool
  mantissa : Nat
  exponent : Int
deriving Repr, DecidableEq

namespace Dyadic

/-- The exponent of the smallest positive float, which is the spacing of the subnormal floats. -/
def leastExponent : Int := -1074

/-- The exact value of a finite float: a biased exponent of zero marks a mantissa without the leading bit. -/
def ofFloat (x : Float) : Dyadic :=
  let bits := x.toBits.toNat
  let biased := bits / Nat.pow 2 52 % Nat.pow 2 11
  let fraction := bits % Nat.pow 2 52
  { negative := bits / Nat.pow 2 63 == 1
    mantissa := if biased = 0 then fraction else Nat.pow 2 52 + fraction
    exponent := (max biased 1 : Nat) - 1075 }

/-- The float with this value, for a mantissa below `2 ^ 53` and an exponent no smaller than `leastExponent`. -/
def toFloat (d : Dyadic) : Float :=
  let room := min (52 - d.mantissa.log2) (d.exponent - leastExponent).toNat
  let mantissa := d.mantissa * Nat.pow 2 room
  let biased := if mantissa < Nat.pow 2 52 then 0 else (d.exponent - room + 1075).toNat
  let sign := if d.negative then Nat.pow 2 63 else 0
  Float.ofBits (UInt64.ofNat (sign + biased * Nat.pow 2 52 + mantissa % Nat.pow 2 52))

end Dyadic

/-- The value that is not a number. -/
def notANumber : Float := 0.0 / 0.0

/-- Positive infinity. -/
def infinity : Float := 1.0 / 0.0

/-- The remainder of a division that truncates, with the sign of the dividend. No rounding takes place: the remainder
of two floats is a float. -/
def remainder (x y : Float) : Float :=
  if x.isNaN || y.isNaN || x.isInf || y == 0.0 then notANumber
  else if y.isInf then x
  else
    let a := Dyadic.ofFloat x
    let b := Dyadic.ofFloat y
    let exponent := min a.exponent b.exponent
    let scaled (d : Dyadic) : Nat := d.mantissa * Nat.pow 2 (d.exponent - exponent).toNat
    Dyadic.toFloat { negative := a.negative, mantissa := scaled a % scaled b, exponent := exponent }

end Prebake
