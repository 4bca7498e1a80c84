import Prebake.Json.Record
import Prebake.Registry.Basic

/-!
# Reading registries

A registry is a record with a route and a list of primitives. Where a value is given, a field `provenance` tells what
the other fields mean; in the written form as a list it comes first.
-/

namespace Prebake

open Json

/-! ### Given values -/

/-- The ways in which a value can be given. -/
inductive Provenance where
  | literal
  | componentLocal
  | serverValue
  | unknown
deriving DecidableEq, Repr

namespace Provenance

/-- All ways. -/
def all : List Provenance := [literal, componentLocal, serverValue, unknown]

/-- The name of a way. -/
def name : Provenance → String
  | literal => "literal"
  | componentLocal => "componentLocal"
  | serverValue => "serverValue"
  | unknown => "unknown"

/-- The way with a name. -/
def ofName? (name : String) : Option Provenance := all.find? (·.name == name)

/-- The field that holds what is given. -/
def field : Provenance → String
  | literal => "value"
  | componentLocal | unknown => "expr"
  | serverValue => "slot"

/-- What is wanted of a list of the fields. -/
def wantedLength (provenance : Provenance) : String :=
  "struct variant PropValue::" ++ title ++ " with 1 element"
where
  /-- What the way is called in messages. -/
  title : String := match provenance with
    | literal => "Literal"
    | componentLocal => "ComponentLocal"
    | serverValue => "ServerValue"
    | unknown => "Unknown"

/-- Reads the name of a way. -/
def read : Reader Provenance := do
  match ← Reader.peek with
  | none => Reader.refuse (.ended .value)
  | some '"' =>
    Reader.skip
    let name ← Reader.stringRest
    match ofName? name with
    | some provenance => return provenance
    | none => Reader.refuse (.unknownVariant name (all.map Provenance.name))
  | some _ => Reader.wrongType "variant identifier"

/-- What is given, where the field holds a value. -/
def give (provenance : Provenance) (value : Json) : Except Fault Given :=
  match provenance, value with
  | literal, value => .ok (.literal value)
  | componentLocal, .string source => .ok (.expression source)
  | serverValue, .string name => .ok (.slot name)
  | unknown, .string source => .ok (.unclassified source)
  | _, value => .error (.invalidType (Reader.kindText value) "a string")

/-- What is given by the fields of an object other than `provenance`. -/
def giveFields (provenance : Provenance) : Option Given → List (String × Json) → Except Fault Given
  | some given, [] => .ok given
  | none, [] => .error (.missingField provenance.field)
  | found?, (name, value) :: rest => do
    if name = provenance.field then
      if found?.isSome then .error (.duplicateField name)
      else giveFields provenance (some (← provenance.give value)) rest
    else giveFields provenance found? rest

/-- What is given by the items of a list after the first one. -/
def giveItems (provenance : Provenance) : List Json → Except Fault Given
  | [] => .error (.invalidLength 0 provenance.wantedLength)
  | value :: rest => do
    let given ← provenance.give value
    if rest.isEmpty then return given
    else .error (.invalidLength (rest.length + 1) "1 element in sequence")

end Provenance

namespace Given

/-- The field that tells how a value is given. -/
def kindField : String := "provenance"

/-- Reads a field of an object that tells how a value is given. -/
def readField (levels : Nat) (kind? : Option Provenance) (others : List (String × Json)) (name : String) :
    Reader (Option Provenance × List (String × Json)) := do
  if name = kindField then
    if kind?.isSome then Reader.refuse (.duplicateField name)
    Reader.colon
    return (some (← Provenance.read), others)
  else
    Reader.colon
    return (kind?, others ++ [(name, ← Reader.value levels)])

/-- Reads what is given after the opening brace of an object. -/
def readObject (levels : Nat) : Reader Given := do
  let (kind?, others) ← Reader.fields (fun (kind?, others) name => readField levels kind? others name) (none, [])
  match kind? with
  | some kind => kind.giveFields none others
  | none => Reader.refuse (.missingField kindField)

/-- Reads what is given after the opening bracket of a list. -/
def readList (levels : Nat) : Reader Given := do
  if ← Reader.hasItem true then
    let kind ← Provenance.read
    let another (done : List Json) : Reader (List Json) := do return done ++ [← Reader.value levels]
    let others ← Reader.itemLoop another ((← get).length + 1) false []
    Reader.endList
    kind.giveItems others
  else Reader.refuse (.missingField kindField)

/-- Reads what is given. -/
def read (levels : Nat) : Reader Given := do
  match ← Reader.peek with
  | none => Reader.refuse (.ended .value)
  | some '\x7b' => Reader.nested readObject levels
  | some '[' => Reader.nested readList levels
  | some _ => Reader.wrongType "internally tagged enum PropValue"

end Given

/-! ### Primitives and registries -/

namespace Primitive

/-- What is wanted of a primitive. -/
def shape : Shape Primitive where
  title := "struct PrimitiveRecord"
  closed := false
  fields := [
    ⟨"id", true, fun _ p => do return { p with id := ← Reader.text }⟩,
    ⟨"parentId", false, fun _ p => do return { p with parent? := ← Reader.text? }⟩,
    ⟨"childrenIds", false, fun levels p => do
      return { p with children := ← Reader.list (fun _ => Reader.text) levels }⟩,
    ⟨"tag", true, fun _ p => do return { p with tag := ← Reader.text }⟩,
    ⟨"props", false, fun levels p => do return { p with props := ← Reader.map Given.read levels }⟩,
    ⟨"bindings", false, fun levels p => do return { p with bindings := ← Reader.map Given.read levels }⟩,
    ⟨"isPrimaryBranch", true, fun _ p => do return { p with onPrimaryBranch := ← Reader.bool }⟩,
    ⟨"component", false, fun _ p => do return { p with component? := ← Reader.text? }⟩]

/-- Reads a primitive. -/
def read (levels : Nat) : Reader Primitive := shape.read (new "" "") levels

end Primitive

namespace Registry

/-- What is wanted of a registry, which is read into its route and its primitives. -/
def shape : Shape (Option String × List Primitive) where
  title := "struct RegistryFile"
  closed := false
  fields := [
    ⟨"route", false, fun _ (_, primitives) => do return (← Reader.text?, primitives)⟩,
    ⟨"records", true, fun levels (route?, _) => do return (route?, ← Reader.list Primitive.read levels)⟩]

/-- The registry that a text holds. -/
def parse (text : String) : Except Failure Registry := do
  let (route?, primitives) ← ((shape.read (none, []) Reader.maxLevels).run text).mapError .invalidRegistry
  return { ← ofList primitives with route? := route? }

end Registry

end Prebake
