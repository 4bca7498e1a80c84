import Prebake.Registry.Basic

/-!
# The trees of a registry

The primitives below one primitive as a tree, and the way from a primitive up to one of its ancestors. Both follow the
registry for as many steps as it has primitives, which is all the way where the registry is valid.
-/

namespace Prebake

/-- A primitive with all that is below it. -/
inductive Tree where
  | node (primitive : Primitive) (children : List Tree)

namespace Tree

/-- The primitive at the top of a tree. -/
def top : Tree → Primitive
  | node primitive _ => primitive

mutual

/-- The ids in a tree, children before their parents. -/
def ids : Tree → List String
  | node primitive children => idsBelow children ++ [primitive.id]

/-- The ids in some trees. -/
def idsBelow : List Tree → List String
  | [] => []
  | tree :: trees => ids tree ++ idsBelow trees

end

end Tree

namespace Registry

/-- The tree below a primitive, down to a depth. -/
def treeBelow (registry : Registry) : Nat → Primitive → Tree
  | 0, p => .node p []
  | depth + 1, p => .node p ((registry.childrenOf p).map (treeBelow registry depth))

/-- The whole tree below a primitive. -/
def tree (registry : Registry) (p : Primitive) : Tree := registry.treeBelow registry.size p

/-- The way from a primitive up to an ancestor, or to its root if it does not come by the ancestor, in at most so many
steps. -/
def wayUp (registry : Registry) (ancestor : String) : Nat → Primitive → List Primitive
  | 0, p => [p]
  | steps + 1, p =>
    if p.id = ancestor then [p]
    else match registry.parentOf? p with
      | some parent => p :: wayUp registry ancestor steps parent
      | none => [p]

/-- The scope of a primitive that reaches up to an ancestor. -/
def scopeUpTo (registry : Registry) (p : Primitive) (ancestor : String) : Scope :=
  (registry.wayUp ancestor registry.size p).map Primitive.layer

/-- The number of steps from a primitive up to an ancestor, or out of its tree if it does not come by the ancestor. -/
def stepsUp (registry : Registry) (ancestor : String) : Nat → Primitive → Nat
  | 0, _ => 0
  | steps + 1, p =>
    if p.id = ancestor then 0
    else match registry.parentOf? p with
      | some parent => stepsUp registry ancestor steps parent + 1
      | none => 1

/-- The distance of an id from an ancestor. -/
def distance (registry : Registry) (id ancestor : String) : Nat :=
  match registry.find? id with
  | some p => registry.stepsUp ancestor registry.size p
  | none => 0

end Registry

end Prebake
