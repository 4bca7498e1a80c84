import Prebake.Scope

/-!
# Primitives

A primitive is one occurrence of an element in a page: its tag, its properties, the bindings of the component it
occurs in, and its place among the other primitives.
-/

namespace Prebake

/-- A node of the markup to come, with its links to its parent and to its children. -/
structure Primitive where
  id : String
  parent? : Option String
  /-- The ids of the children in document order. -/
  children : List String
  tag : String
  props : Givens
  bindings : Givens
  /-- Whether the primitive occurs whenever the page is shown. -/
  onPrimaryBranch : Bool
  component? : Option String
deriving Inhabited, Repr

namespace Primitive

/-- A primitive on the primary branch without anything but its id and its tag. -/
def new (id tag : String) : Primitive where
  id := id
  parent? := none
  children := []
  tag := tag
  props := []
  bindings := []
  onPrimaryBranch := true
  component? := none

/-- The primitive with a parent. -/
def withParent (p : Primitive) (parent : String) : Primitive := { p with parent? := some parent }

/-- The primitive with these children. -/
def withChildren (p : Primitive) (children : List String) : Primitive := { p with children := children }

/-- The primitive with a property set. -/
def withProp (p : Primitive) (name : String) (given : Given) : Primitive :=
  { p with props := setField name given p.props }

/-- The primitive with a binding set. -/
def withBinding (p : Primitive) (name : String) (given : Given) : Primitive :=
  { p with bindings := setField name given p.bindings }

/-- The primitive on or off the primary branch. -/
def onBranch (p : Primitive) (primary : Bool) : Primitive := { p with onPrimaryBranch := primary }

/-- Whether the primitive is the root of a tree. -/
def isRoot (p : Primitive) : Bool := p.parent?.isNone

/-- The layer of bindings that the primitive adds to a scope. -/
def layer (p : Primitive) : Layer := ⟨p.id, p.bindings⟩

end Primitive

end Prebake
