import Prebake.Json.Basic

/-!
# Build-time values

A value is what an expression evaluates to at build time. Text may hold slots whose contents are known only at serve
time; such a server value can be joined to other text but never inspected.
-/

namespace Prebake

/-- A piece of text, or the place of a text that is known only at serve time. -/
inductive Segment where
  | text (content : String)
  | slot (name : String)
deriving DecidableEq, Repr, Inhabited

/-- The values of expressions. -/
inductive Value where
  | undefined
  | null
  | bool (b : Bool)
  | number (x : Float)
  | string (s : String)
  /-- Text with slots in it, in order. -/
  | server (segments : List Segment)
  | array (items : List Value)
  | object (fields : List (String × Value))
deriving Inhabited, Repr

namespace Value

/-- The server value that is one slot. -/
def ofSlot (name : String) : Value := server [.slot name]

mutual

/-- The value that a JSON value denotes. -/
def ofJson : Json → Value
  | .null => null
  | .bool b => bool b
  | .whole n => number (Float.ofInt n)
  | .decimal x => number x
  | .string s => string s
  | .array items => array (ofJsonItems items)
  | .object fields => object (ofJsonFields fields)

/-- The values that the items of a list denote. -/
def ofJsonItems : List Json → List Value
  | [] => []
  | item :: items => ofJson item :: ofJsonItems items

/-- The values that the fields of an object denote, under their names. -/
def ofJsonFields : List (String × Json) → List (String × Value)
  | [] => []
  | (name, item) :: fields => (name, ofJson item) :: ofJsonFields fields

end

/-- Whether the value stands for nothing. -/
def isNullish : Value → Bool
  | undefined | null => true
  | _ => false

/-- Whether the value is a server value. -/
def isServer : Value → Bool
  | server _ => true
  | _ => false

/-- Whether the value is an array or an object. -/
def isCompound : Value → Bool
  | array _ | object _ => true
  | _ => false

/-- The name of the kind of a value. -/
def typeName : Value → String
  | undefined => "undefined"
  | bool _ => "boolean"
  | number _ => "number"
  | string _ | server _ => "string"
  | null | array _ | object _ => "object"

end Value

end Prebake
