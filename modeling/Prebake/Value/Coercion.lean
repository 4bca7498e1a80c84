import Prebake.Number.Written
import Prebake.Obstacle
import Prebake.Text.Blank
import Prebake.Value.Basic

/-!
# Values as conditions, numbers and texts

Every value but a server value counts as a condition, as a number and as a text. As text, an array is its items with
commas between them, where `undefined` and `null` leave their place empty.
-/

namespace Prebake

/-- The number that a text denotes: nothing but blanks is zero, and what is no number is `NaN`. -/
def readNumber (s : String) : Float :=
  let trimmed := trimBlank s.toList
  if trimmed.isEmpty then 0.0 else (Decimal.read? trimmed).getD notANumber

namespace Value

/-- The value as a condition. -/
def truth : Value → Except Obstacle Bool
  | undefined | null => .ok false
  | bool b => .ok b
  | number x => .ok (x != 0.0 && !x.isNaN)
  | string s => .ok (s != "")
  | server _ => .error (.inspected .condition)
  | array _ | object _ => .ok true

/-- The text of a value that is neither an array nor a server value. -/
def scalarText : Value → String
  | undefined => "undefined"
  | null => "null"
  | bool b => if b then "true" else "false"
  | number x => writeNumber x
  | string s => s
  | object _ => "[object Object]"
  | server _ | array _ => ""

mutual

/-- The value as a text. -/
def toText : Value → Except Obstacle String
  | server _ => .error (.inspected .stringOperation)
  | array items => do return String.intercalate "," (← itemTexts items)
  | value => .ok value.scalarText

/-- The texts of the items of an array. -/
def itemTexts : List Value → Except Obstacle (List String)
  | [] => .ok []
  | item :: items => do
    let text ← if item.isNullish then .ok "" else toText item
    return text :: (← itemTexts items)

end

/-- The value as a number. -/
def toNumber : Value → Except Obstacle Float
  | undefined => .ok notANumber
  | null => .ok 0.0
  | bool b => .ok (if b then 1.0 else 0.0)
  | number x => .ok x
  | string s => .ok (readNumber s)
  | server _ => .error (.inspected .arithmetic)
  | value => do return readNumber (← toText value)

end Value

end Prebake
