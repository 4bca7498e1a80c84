import Prebake.Failure

/-!
# Registries

A registry holds the primitives of a page in the order in which they were recorded. No two of them have the same id.
-/

namespace Prebake

/-- Primitives with different ids, in the order in which they were registered. -/
structure Registry where
  route? : Option String
  primitives : List Primitive
  nodup : (primitives.map (·.id)).Nodup

namespace Registry

/-- The registry without primitives. -/
def empty : Registry := ⟨none, [], List.nodup_nil⟩

instance : Inhabited Registry := ⟨empty⟩

/-- The ids of the primitives. -/
def ids (registry : Registry) : List String := registry.primitives.map (·.id)

/-- The number of primitives. -/
def size (registry : Registry) : Nat := registry.primitives.length

/-- The primitive with an id. -/
def find? (registry : Registry) (id : String) : Option Primitive := registry.primitives.find? (·.id == id)

/-- Whether some primitive has an id. -/
def contains (registry : Registry) (id : String) : Bool := registry.ids.contains id

/-- The primitives without a parent. -/
def roots (registry : Registry) : List Primitive := registry.primitives.filter Primitive.isRoot

/-- The parent of a primitive. -/
def parentOf? (registry : Registry) (p : Primitive) : Option Primitive := p.parent?.bind registry.find?

/-- The primitives that are listed as the children of a primitive. -/
def childrenOf (registry : Registry) (p : Primitive) : List Primitive := p.children.filterMap registry.find?

/-- The registry with a route. -/
def withRoute (registry : Registry) (route : String) : Registry := { registry with route? := some route }

theorem nodup_append_id {primitives : List Primitive} (h : (primitives.map (·.id)).Nodup) {p : Primitive}
    (hp : p.id ∉ primitives.map (·.id)) : ((primitives ++ [p]).map (·.id)).Nodup := by
  rw [List.map_append, List.nodup_append]
  refine ⟨h, by simp, fun a ha b hb => ?_⟩
  have : b = p.id := by simpa using hb
  exact fun same => hp (this ▸ same ▸ ha)

/-- The registry with one more primitive at its end. An id is registered once only. -/
def insert (registry : Registry) (p : Primitive) : Except Failure Registry :=
  if h : p.id ∈ registry.primitives.map (·.id) then .error (.duplicateId p.id)
  else .ok { registry with
    primitives := registry.primitives ++ [p]
    nodup := nodup_append_id registry.nodup h }

/-- The registry with these primitives added in turn. -/
def insertAll (registry : Registry) (primitives : List Primitive) : Except Failure Registry :=
  primitives.foldlM insert registry

/-- The registry of these primitives. -/
def ofList (primitives : List Primitive) : Except Failure Registry := empty.insertAll primitives

end Registry

end Prebake
