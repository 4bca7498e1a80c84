import Mathlib.Data.List.Nodup
import Mathlib.Logic.Relation
import Prebake.Registry.Cycles

/-!
# Looking primitives up

An id is looked up at most once in a registry, so `Registry.find?` and membership tell the same. `Registry.Lists` is the
relation between a primitive and the ids of its children; everything about cycles, trees and validity is stated of it.
-/

namespace Prebake

namespace Registry

variable {registry : Registry} {p q : Primitive} {id child : String}

/-- The ids of a registry are those of its primitives. -/
theorem mem_ids : id ∈ registry.ids ↔ ∃ p ∈ registry.primitives, p.id = id := by
  simp [ids]

theorem id_mem_ids (hp : p ∈ registry.primitives) : p.id ∈ registry.ids :=
  mem_ids.2 ⟨p, hp, rfl⟩

/-- A registry holds at most one primitive of an id. -/
theorem eq_of_id_eq (hp : p ∈ registry.primitives) (hq : q ∈ registry.primitives) (h : p.id = q.id) : p = q :=
  List.inj_on_of_nodup_map registry.nodup hp hq h

/-- Under an id stands the registered primitive that has it. -/
theorem find?_eq_some_iff : registry.find? id = some p ↔ p ∈ registry.primitives ∧ p.id = id := by
  constructor
  · intro h
    exact ⟨List.mem_of_find?_eq_some h, by simpa using List.find?_some h⟩
  · rintro ⟨hp, rfl⟩
    cases hfound : registry.find? p.id with
    | none => exact absurd (List.find?_eq_none.1 hfound p hp) (by simp)
    | some q =>
      have hq : q.id = p.id := by simpa using List.find?_some hfound
      rw [eq_of_id_eq (List.mem_of_find?_eq_some hfound) hp hq]

theorem find?_of_mem (hp : p ∈ registry.primitives) : registry.find? p.id = some p :=
  find?_eq_some_iff.2 ⟨hp, rfl⟩

/-- There is a primitive under each registered id. -/
theorem exists_find?_of_mem_ids (h : id ∈ registry.ids) :
    ∃ p ∈ registry.primitives, p.id = id ∧ registry.find? id = some p := by
  obtain ⟨p, hp, rfl⟩ := mem_ids.1 h
  exact ⟨p, hp, rfl, find?_of_mem hp⟩

theorem contains_iff : registry.contains id = true ↔ id ∈ registry.ids := by
  simp [contains]

/-- A primitive lists an id as one of its children. -/
def Lists (registry : Registry) (parent child : String) : Prop :=
  ∃ p ∈ registry.primitives, p.id = parent ∧ child ∈ p.children

/-- The children under an id are those that are listed there. -/
theorem mem_childIds : child ∈ registry.childIds id ↔ registry.Lists id child := by
  unfold childIds Lists
  cases hfound : registry.find? id with
  | none =>
    simp only [Option.elim_none, List.not_mem_nil, false_iff, not_exists, not_and]
    intro p hp same
    rw [← same, find?_of_mem hp] at hfound
    cases hfound
  | some p =>
    obtain ⟨hp, rfl⟩ := find?_eq_some_iff.1 hfound
    simp only [Option.elim_some]
    constructor
    · intro h
      exact ⟨p, hp, rfl, h⟩
    · rintro ⟨q, hq, same, h⟩
      exact eq_of_id_eq hq hp same ▸ h

/-- Only a registered primitive lists children. -/
theorem Lists.mem_ids (h : registry.Lists id child) : id ∈ registry.ids := by
  obtain ⟨p, hp, rfl, -⟩ := h
  exact id_mem_ids hp

end Registry

end Prebake
