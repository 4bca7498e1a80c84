import Prebake.Proofs.Registry.Validity
import Prebake.Proofs.Renaming
import Prebake.Registry.Tree

/-!
# Registries with renamed slots

Renaming slots changes what the primitives of a registry are given, and neither their ids nor how they stand to each other. So
a registry with renamed slots has the same ways up, and it is well formed if the registry is.
-/

namespace Prebake

variable {f : String → String} {registry : Registry} {p : Primitive}

namespace Registry

/-- The registry with other names for the slots of all properties and bindings. -/
def renameSlots (f : String → String) (registry : Registry) : Registry where
  route? := registry.route?
  primitives := registry.primitives.map (Primitive.renameSlots f)
  nodup := by
    rw [List.map_map]
    exact registry.nodup

theorem ids_renameSlots (registry : Registry) : (registry.renameSlots f).ids = registry.ids := List.map_map ..

theorem size_renameSlots (registry : Registry) : (registry.renameSlots f).size = registry.size := List.length_map ..

theorem find?_renameSlots (registry : Registry) (id : String) :
    (registry.renameSlots f).find? id = (registry.find? id).map (Primitive.renameSlots f) := List.find?_map ..

theorem roots_renameSlots (registry : Registry) :
    (registry.renameSlots f).roots = registry.roots.map (Primitive.renameSlots f) := List.filter_map ..

/-- The parent of a renamed primitive is its renamed parent. -/
theorem parentOf?_renameSlots (registry : Registry) (p : Primitive) :
    (registry.renameSlots f).parentOf? (p.renameSlots f) = (registry.parentOf? p).map (Primitive.renameSlots f) := by
  unfold parentOf?
  rw [Option.map_bind]
  exact congrArg (p.parent?.bind ·) (funext fun id => registry.find?_renameSlots id)

/-- The children of a renamed primitive are its renamed children. -/
theorem childrenOf_renameSlots (registry : Registry) (p : Primitive) :
    (registry.renameSlots f).childrenOf (p.renameSlots f) = (registry.childrenOf p).map (Primitive.renameSlots f) := by
  unfold childrenOf
  rw [List.map_filterMap]
  exact List.filterMap_congr fun id _ => registry.find?_renameSlots id

/-! ## Ways up -/

/-- A way up leads over the same primitives. -/
theorem wayUp_renameSlots (registry : Registry) (ancestor : String) (steps : Nat) (p : Primitive) :
    (registry.renameSlots f).wayUp ancestor steps (p.renameSlots f) =
      (registry.wayUp ancestor steps p).map (Primitive.renameSlots f) := by
  induction steps generalizing p with
  | zero => rfl
  | succ steps ih =>
    have hid : (p.renameSlots f).id = p.id := rfl
    simp only [wayUp, hid, parentOf?_renameSlots]
    split
    · rfl
    · cases registry.parentOf? p with
      | none => rfl
      | some parent => exact congrArg (p.renameSlots f :: ·) (ih parent)

/-- A scope has the same layers, with renamed bindings. -/
theorem scopeUpTo_renameSlots (registry : Registry) (p : Primitive) (ancestor : String) :
    (registry.renameSlots f).scopeUpTo (p.renameSlots f) ancestor = (registry.scopeUpTo p ancestor).renameSlots f := by
  rw [scopeUpTo, size_renameSlots, wayUp_renameSlots, List.map_map, scopeUpTo, Scope.renameSlots, List.map_map]
  rfl

/-- A way up takes as many steps. -/
theorem stepsUp_renameSlots (registry : Registry) (ancestor : String) (steps : Nat) (p : Primitive) :
    (registry.renameSlots f).stepsUp ancestor steps (p.renameSlots f) = registry.stepsUp ancestor steps p := by
  induction steps generalizing p with
  | zero => rfl
  | succ steps ih =>
    have hid : (p.renameSlots f).id = p.id := rfl
    simp only [stepsUp, hid, parentOf?_renameSlots]
    split
    · rfl
    · cases registry.parentOf? p with
      | none => rfl
      | some parent => exact congrArg (· + 1) (ih parent)

/-- Distances are the same. -/
theorem distance_renameSlots (registry : Registry) (id ancestor : String) :
    (registry.renameSlots f).distance id ancestor = registry.distance id ancestor := by
  unfold distance
  rw [find?_renameSlots]
  cases registry.find? id with
  | none => rfl
  | some p => exact (congrArg (stepsUp _ _ · _) registry.size_renameSlots).trans (registry.stepsUp_renameSlots ..)

end Registry

/-! ## Validity -/

/-- What has been classified stays so. -/
theorem Givens.classified_renameSlots {givens : Givens} (h : Givens.Classified givens) :
    Givens.Classified (Givens.renameSlots f givens) := by
  intro name source hin
  obtain ⟨⟨other, given⟩, hgiven, heq⟩ := List.mem_map.1 hin
  obtain ⟨rfl, hsame⟩ := Prod.mk.inj heq
  cases given with
  | unclassified other =>
    cases hsame
    exact h _ _ hgiven
  | literal value => cases hsame
  | expression other => cases hsame
  | slot slot => cases hsame

/-- Whether a primitive is well formed does not depend on the names of slots. -/
theorem Primitive.WellFormed.renameSlots (h : p.WellFormed) : (p.renameSlots f).WellFormed where
  tag := h.tag
  names := by
    intro name given hin
    obtain ⟨⟨other, original⟩, horiginal, heq⟩ := List.mem_map.1 hin
    obtain ⟨rfl, -⟩ := Prod.mk.inj heq
    exact h.names _ _ horiginal
  classified hoff := (h.classified hoff).imp Givens.classified_renameSlots Givens.classified_renameSlots

namespace Registry

/-- The lists of children are the same. -/
theorem lists_renameSlots (registry : Registry) : (registry.renameSlots f).Lists = registry.Lists := by
  funext parent child
  unfold Lists renameSlots
  simp [Primitive.renameSlots]

/-- Renaming slots keeps both kinds of links. -/
theorem IsForest.renameSlots (h : registry.IsForest) : (registry.renameSlots f).IsForest where
  children_registered := by
    rw [ids_renameSlots]
    exact List.forall_mem_map.2 h.children_registered
  parents_registered := by
    rw [ids_renameSlots]
    exact List.forall_mem_map.2 h.parents_registered
  listed_once := by
    have hlinks : (registry.renameSlots f).primitives.flatMap (·.children) = registry.primitives.flatMap (·.children) :=
      List.flatMap_map ..
    rw [hlinks]
    exact h.listed_once
  lists_iff := List.forall_mem_map.2 fun p hp => List.forall_mem_map.2 fun c hc => h.lists_iff p hp c hc
  acyclic := by
    rw [lists_renameSlots]
    exact h.acyclic

/-- Renaming slots makes no registry invalid. -/
theorem validate_renameSlots (h : registry.validate = .ok ()) : (registry.renameSlots f).validate = .ok () := by
  have hwell := wellFormed_of_validate h
  have hrenamed : (registry.renameSlots f).WellFormed := by
    refine ⟨hwell.forest.renameSlots, fun p hp => ?_⟩
    obtain ⟨original, horiginal, rfl⟩ := List.mem_map.1 hp
    exact (hwell.primitives original horiginal).renameSlots
  rw [validate, hrenamed.failures_eq_nil]

end Registry

end Prebake
