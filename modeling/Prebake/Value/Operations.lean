import Prebake.Text.Units
import Prebake.Value.Segments

/-!
# Operations on values

Addition joins texts, the comparisons follow the usual coercions, and `member` reads a property. Each of them refuses
server values, except that addition passes their slots on.
-/

namespace Prebake.Value

/-- Whether addition with this value joins texts: a text, an array or an object. -/
def joins : Value → Bool
  | string _ | server _ | array _ | object _ => true
  | _ => false

/-- The sum of two numbers, or the joined text if either side is more than a number. -/
def add (a b : Value) : Except Obstacle Value :=
  if a.joins || b.joins then .ok (ofSegments (a.toSegments ++ b.toSegments))
  else do return number ((← a.toNumber) + (← b.toNumber))

/-- Equality without coercion. Two arrays or two objects are never equal, since each evaluation makes a new one. -/
def strictEq (a b : Value) : Except Obstacle Bool :=
  if a.isServer || b.isServer then .error (.inspected .comparison)
  else match a, b with
    | undefined, undefined => .ok true
    | null, null => .ok true
    | bool x, bool y => .ok (x == y)
    | number x, number y => .ok (x == y)
    | string x, string y => .ok (x == y)
    | _, _ => .ok false

/-- Equality with coercion: `undefined` and `null` equal each other only, two texts are compared as texts, and all
else as numbers. -/
def looseEq (a b : Value) : Except Obstacle Bool :=
  if a.isServer || b.isServer then .error (.inspected .comparison)
  else if a.isNullish || b.isNullish then .ok (a.isNullish && b.isNullish)
  else match a, b with
    | string x, string y => .ok (x == y)
    | _, _ =>
      if a.isCompound && b.isCompound then .ok false
      else do return (← a.toNumber) == (← b.toNumber)

/-- The order of two numbers, none if either is `NaN`. -/
def orderNumbers (x y : Float) : Option Ordering :=
  if x < y then some .lt
  else if y < x then some .gt
  else if x == y then some .eq
  else none

/-- The order of two values: of two texts by code points, of all else as numbers. -/
def order (a b : Value) : Except Obstacle (Option Ordering) :=
  if a.isServer || b.isServer then .error (.inspected .comparison)
  else match a, b with
    | string x, string y => .ok (some (compare x y))
    | _, _ => do return orderNumbers (← a.toNumber) (← b.toNumber)

/-- The position that a key denotes: digits, possibly after a plus sign, for a number of at most 64 bits. -/
def position? (key : String) : Option Nat :=
  let digits := match key.toList with
    | '+' :: rest => rest
    | all => all
  let n := ofDigits 10 digits
  if !digits.isEmpty && digits.all Char.isDigit && n < Nat.pow 2 64 then some n else none

/-- The property of a value that a key names. -/
def property (value : Value) (key : String) : Except Obstacle Value :=
  match value with
  | object fields => .ok ((fields.lookup key).getD undefined)
  | array items =>
    .ok (if key = "length" then number (Float.ofNat items.length)
      else ((position? key).bind fun i => items[i]?).getD undefined)
  | string s =>
    .ok (if key = "length" then number (Float.ofNat (Units.count s))
      else (((position? key).bind fun i => Units.at? s i).map string).getD undefined)
  | server _ => .error (.inspected .memberAccess)
  | bool _ | number _ => .ok undefined
  | undefined | null => .error (.propertyOfNothing key value.scalarText)

/-- The property of a value under a key that is itself a value; the key is turned into a text first. -/
def member (value key : Value) : Except Obstacle Value := do
  value.property (← key.toText)

end Prebake.Value
