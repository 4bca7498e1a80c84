import Prebake.Number.Dyadic
import Prebake.Number.Decimal

/-!
# The shortest decimal of a float

Of the decimals that read back as a given float, the shortest has the fewest digits and, among those, is the nearest.
For one digit, two digits and so on up to seventeen, the two neighbours of the value on the grid of that many digits
are tried: a grid meets the interval of numbers that round to the float exactly if one of the two neighbours does.
-/

namespace Prebake.Shortest

/-- A positive float with the interval of the numbers that round to it, as whole numbers over a common `unit`: the
value is `mid / unit` and the interval reaches from `low / unit` to `high / unit`, ends included if `closed`. -/
structure Target where
  low : Nat
  mid : Nat
  high : Nat
  unit : Nat
  closed : Bool

/-- The interval around a positive float. Its lower half is narrower where the spacing of floats changes. -/
def Target.ofDyadic (d : Dyadic) : Target :=
  let scale := Nat.pow 2 d.exponent.toNat
  let narrow := d.mantissa = Nat.pow 2 52 && Dyadic.leastExponent < d.exponent
  { low := (4 * d.mantissa - if narrow then 1 else 2) * scale
    mid := 4 * d.mantissa * scale
    high := (4 * d.mantissa + 2) * scale
    unit := 4 * Nat.pow 2 (-d.exponent).toNat
    closed := d.mantissa % 2 == 0 }

/-- The exponent `e` with `10 ^ (e - 1) ≤ mid / unit < 10 ^ e`. -/
def Target.magnitude (t : Target) : Int :=
  if t.unit ≤ t.mid then (Nat.toDigits 10 (t.mid / t.unit)).length
  else 1 - (Nat.toDigits 10 (t.unit / t.mid)).length

/-- The multiple of `10 ^ exponent` in the interval that is nearest to the value, the upper one of two equally near.
-/
def Target.onGrid? (t : Target) (exponent : Int) : Option Decimal :=
  let up := Nat.pow 10 (-exponent).toNat
  let step := t.unit * Nat.pow 10 exponent.toNat
  let inside (n : Nat) : Bool :=
    if t.closed then t.low * up ≤ n * step && n * step ≤ t.high * up
    else t.low * up < n * step && n * step < t.high * up
  let below := t.mid * up / step
  let above := below + 1
  let nearerAbove := above * step - t.mid * up ≤ t.mid * up - below * step
  match inside below, inside above with
  | true, true => some { coefficient := if nearerAbove then above else below, exponent := exponent }
  | true, false => some { coefficient := below, exponent := exponent }
  | false, true => some { coefficient := above, exponent := exponent }
  | false, false => none

/-- The shortest decimal of a positive float. Seventeen digits always suffice. -/
def ofDyadic (d : Dyadic) : Decimal :=
  let t := Target.ofDyadic d
  ((List.range 17).findSome? fun n : Nat => t.onGrid? (t.magnitude - (n + 1 : Nat))).getD
    { coefficient := d.mantissa, exponent := 0 }

/-- The shortest decimal of a positive finite float. -/
def ofFloat (x : Float) : Decimal := ofDyadic (Dyadic.ofFloat x)

end Prebake.Shortest
