import Prebake.Json.Reader

/-!
# Records in JSON texts

A record is written as an object with a field for each of its parts, or as a list of the parts in their order. What is
wanted of the fields is told by a `Shape`; the parts are read into a state one after the other.
-/

namespace Prebake.Json

namespace Reader

/-- A text. -/
def text : Reader String := do
  match ← peek with
  | none => refuse (.ended .value)
  | some '"' =>
    skip
    stringRest
  | some _ => wrongType "a string"

/-- A text or null. -/
def text? : Reader (Option String) := do
  match ← peek with
  | some 'n' =>
    skip
    word ['u', 'l', 'l']
    return none
  | _ => return some (← text)

/-- A truth value. -/
def bool : Reader Bool := do
  match ← peek with
  | none => refuse (.ended .value)
  | some 't' =>
    skip
    word ['r', 'u', 'e']
    return true
  | some 'f' =>
    skip
    word ['a', 'l', 's', 'e']
    return false
  | some _ => wrongType "a boolean"

/-- A list. -/
def list {α : Type} (item : Nat → Reader α) (levels : Nat) : Reader (List α) := do
  match ← peek with
  | none => refuse (.ended .value)
  | some '[' => nested (fun levels => items (item levels)) levels
  | some _ => wrongType "a sequence"

/-- An object with values of one kind. Of the fields of one name the last one counts, at the place of the first. -/
def map {α : Type} (item : Nat → Reader α) (levels : Nat) : Reader (List (String × α)) := do
  match ← peek with
  | none => refuse (.ended .value)
  | some '\x7b' =>
    nested (fun levels => fields (fun done name => do
      colon
      return setField name (← item levels) done) []) levels
  | some _ => wrongType "a map"

end Reader

/-- A field of a record that is read into a state. -/
structure Field (σ : Type) where
  name : String
  /-- Whether a record without the field is refused. -/
  required : Bool
  read : Nat → σ → Reader σ

/-- What is wanted of a record. -/
structure Shape (σ : Type) where
  /-- What the record is called in messages. -/
  title : String
  fields : List (Field σ)
  /-- Whether fields of other names are refused. -/
  closed : Bool

namespace Shape

variable {σ : Type}

/-- The names of the fields. -/
def names (shape : Shape σ) : List String := shape.fields.map (·.name)

/-- What is wanted where too few parts are listed. -/
def wantedLength (shape : Shape σ) : String :=
  shape.title ++ " with " ++ toString shape.fields.length ++ " elements"

/-- Reads a field of an object, where the names in `seen` have been read before. -/
def readField (shape : Shape σ) (levels : Nat) (seen : List String) (state : σ) (name : String) :
    Reader (List String × σ) := do
  match shape.fields.find? (·.name == name) with
  | some field =>
    if seen.contains name then Reader.refuse (.duplicateField name)
    Reader.colon
    return (name :: seen, ← field.read levels state)
  | none =>
    if shape.closed then Reader.refuse (.unknownField name shape.names)
    Reader.colon
    Reader.ignored
    return (seen, state)

/-- Reads a record after the opening brace of an object. -/
def readObject (shape : Shape σ) (start : σ) (levels : Nat) : Reader σ := do
  let (seen, state) ← Reader.fields (fun (seen, state) name => shape.readField levels seen state name) ([], start)
  match shape.fields.find? fun field => field.required && !seen.contains field.name with
  | some field => Reader.refuse (.missingField field.name)
  | none => return state

/-- Reads parts in their order after `index` others. Where the list ends, what is left must not be required. -/
def readParts (shape : Shape σ) (levels index : Nat) (first : Bool) (state : σ) : List (Field σ) → Reader σ
  | [] => return state
  | field :: rest => do
    if ← Reader.hasItem first then shape.readParts levels (index + 1) false (← field.read levels state) rest
    else
      if field.required then Reader.refuse (.invalidLength index shape.wantedLength)
      shape.readParts levels (index + 1) first state rest

/-- Reads a record after the opening bracket of a list. -/
def readList (shape : Shape σ) (start : σ) (levels : Nat) : Reader σ := do
  let state ← shape.readParts levels 0 true start shape.fields
  Reader.endList
  return state

/-- Reads a record. -/
def read (shape : Shape σ) (start : σ) (levels : Nat) : Reader σ := do
  match ← Reader.peek with
  | none => Reader.refuse (.ended .value)
  | some '\x7b' => Reader.nested (shape.readObject start) levels
  | some '[' => Reader.nested (shape.readList start) levels
  | some _ => Reader.wrongType shape.title

end Shape

end Prebake.Json
