/-!
# JSON values

A JSON value keeps the order of the fields of its objects. Whole numbers of up to 64 bits are kept apart from numbers
with a fraction or an exponent, since messages name the two kinds differently.
-/

namespace Prebake

/-- The values that a JSON text can hold. -/
inductive Json where
  | null
  | bool (b : Bool)
  | whole (n : Int)
  | decimal (x : Float)
  | string (s : String)
  | array (items : List Json)
  | object (fields : List (String × Json))
deriving Inhabited, Repr

/-- A list of fields with one of them set: an existing field keeps its place, a new one comes last. -/
def setField {α : Type} (name : String) (value : α) : List (String × α) → List (String × α)
  | [] => [(name, value)]
  | (n, v) :: fields => if n = name then (n, value) :: fields else (n, v) :: setField name value fields

end Prebake
