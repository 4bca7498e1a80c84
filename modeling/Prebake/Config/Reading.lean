import Prebake.Config.Basic
import Prebake.Failure
import Prebake.Json.Record

/-!
# Reading configurations

A configuration is a record none of whose fields is required; fields of other names are refused. A policy is written
as its name, or as an object with null for the name.
-/

namespace Prebake

open Json

namespace Policy

/-- All policies. -/
def all : List Policy := [fail, deferToServe]

/-- The policy with a name. -/
def ofName? (name : String) : Option Policy := all.find? (·.name == name)

/-- Reads the name of a policy. -/
def readName : Reader Policy := do
  match ← Reader.peek with
  | none => Reader.refuse (.ended .value)
  | some '"' =>
    Reader.skip
    let name ← Reader.stringRest
    match ofName? name with
    | some policy => return policy
    | none => Reader.refuse (.unknownVariant name (all.map Policy.name))
  | some _ => Reader.wrongType "variant identifier"

/-- Reads nothing, which is written as null. -/
def readUnit : Reader Unit := do
  match ← Reader.peek with
  | none => Reader.refuse (.ended .value)
  | some 'n' =>
    Reader.skip
    Reader.word ['u', 'l', 'l']
  | some _ => Reader.wrongType "unit"

/-- Reads a policy. -/
def read (levels : Nat) : Reader Policy := do
  match ← Reader.peek with
  | none => Reader.refuse (.ended .value)
  | some '"' => readName
  | some '\x7b' =>
    let policy ← Reader.nested (fun _ => do
      let policy ← readName
      Reader.colon
      readUnit
      return policy) levels
    match ← Reader.peek with
    | none => Reader.refuse (.ended .object)
    | some '\x7d' =>
      Reader.skip
      return policy
    | some _ => Reader.refuse .expectedValue
  | some _ => Reader.refuse .expectedValue

end Policy

namespace Config

/-- What is wanted of a configuration. -/
def shape : Shape Config where
  title := "struct PrerenderConfig"
  closed := true
  fields := [
    ⟨"parallel", false, fun _ config => do return { config with parallel := ← Reader.bool }⟩,
    ⟨"onUnresolvable", false, fun levels config => do
      return { config with onUnresolvable := ← Policy.read levels }⟩,
    ⟨"verifyPlaceholders", false, fun _ config => do return { config with verifyMarkers := ← Reader.bool }⟩]

/-- The configuration that a text holds. -/
def parse (text : String) : Except Failure Config :=
  ((shape.read {} Reader.maxLevels).run text).mapError .invalidConfig

end Config

end Prebake
