import Prebake.Given

/-!
# Scopes

A scope is a chain of layers, each of which holds the bindings of one instance: the innermost layer first, then those
of the instances around it. Inner bindings shadow outer ones of the same name.
-/

namespace Prebake

/-- The bindings of one instance. -/
structure Layer where
  owner : String
  bindings : Givens
deriving Inhabited, Repr

/-- The layers in which names are looked up, innermost first. -/
abbrev Scope : Type := List Layer

namespace Scope

/-- The scope with one more layer around it. -/
def pushOuter (scope : Scope) (layer : Layer) : Scope := scope ++ [layer]

/-- The innermost binding of a name, with the position of its layer. -/
def find? : Scope → String → Option (Nat × Given)
  | [], _ => none
  | layer :: outer, name =>
    match layer.bindings.lookup name with
    | some given => some (0, given)
    | none => (find? outer name).map fun (index, given) => (index + 1, given)

/-- The scope as it is seen from one of its layers: that layer and those around it. -/
def fromLayer (scope : Scope) (index : Nat) : Scope := scope.drop index

/-- The owner of a layer. -/
def owner? (scope : Scope) (index : Nat) : Option String := scope[index]?.map (·.owner)

/-- The number of layers. -/
def depth (scope : Scope) : Nat := scope.length

/-- The owners of the layers, innermost first. -/
def owners (scope : Scope) : List String := scope.map (·.owner)

end Scope

/-- The names of what exists only while a page or a server runs. A binding of the same name shadows them. -/
def runtimeNames : List String :=
  ["window", "document", "globalThis", "navigator", "location", "localStorage", "sessionStorage", "console", "fetch",
    "Math", "Date", "JSON", "Intl", "performance", "setTimeout", "setInterval", "requestAnimationFrame"]

end Prebake
