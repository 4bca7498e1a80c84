import Mathlib.Data.List.Flatten
import Prebake.Proofs.Registry.Partition

/-!
# Some trees of a registry

A registry may be cut down to the trees below some of its roots. As no primitive is in two trees, nothing that is left refers
to what is left out, and what is left is valid if the whole registry is (`only_validate`).
-/

namespace Prebake

open Relation

namespace Registry

variable {registry : Registry} {keep : Primitive → Bool} {p q root : Primitive} {id child : String}

/-! ## Selections that break no tree -/

/-- The registry of some of the primitives. -/
def filter (registry : Registry) (keep : Primitive → Bool) : Registry where
  route? := registry.route?
  primitives := registry.primitives.filter keep
  nodup := registry.nodup.sublist (List.filter_sublist.map _)

/-- A primitive is selected exactly if its children are. -/
def IsUnbroken (registry : Registry) (keep : Primitive → Bool) : Prop :=
  ∀ p ∈ registry.primitives, ∀ q ∈ registry.primitives, q.id ∈ p.children → keep p = keep q

theorem mem_filter : p ∈ (registry.filter keep).primitives ↔ p ∈ registry.primitives ∧ keep p = true := List.mem_filter

/-- What is left lists no other children than before. -/
theorem Lists.of_filter (h : (registry.filter keep).Lists id child) : registry.Lists id child := by
  obtain ⟨p, hp, hid, hchild⟩ := h
  exact ⟨p, (mem_filter.1 hp).1, hid, hchild⟩

/-- A selection that breaks no tree leaves a forest. -/
theorem IsForest.filter (hforest : registry.IsForest) (hunbroken : registry.IsUnbroken keep) :
    (registry.filter keep).IsForest where
  children_registered p hp child hchild := by
    obtain ⟨hp, hkept⟩ := mem_filter.1 hp
    obtain ⟨q, hq, rfl⟩ := mem_ids.1 (hforest.children_registered p hp child hchild)
    exact id_mem_ids (mem_filter.2 ⟨hq, (hunbroken p hp q hq hchild).symm.trans hkept⟩)
  parents_registered q hq parent hparent := by
    obtain ⟨hq, hkept⟩ := mem_filter.1 hq
    obtain ⟨p, hp, rfl⟩ := mem_ids.1 (hforest.parents_registered q hq parent hparent)
    have hlisted := (hforest.lists_iff p hp q hq).2 hparent
    exact id_mem_ids (mem_filter.2 ⟨hp, (hunbroken p hp q hq hlisted).trans hkept⟩)
  listed_once := hforest.listed_once.sublist (List.filter_sublist.flatMap _)
  lists_iff p hp q hq := hforest.lists_iff p (mem_filter.1 hp).1 q (mem_filter.1 hq).1
  acyclic id hcycle := hforest.acyclic id (TransGen.mono (fun _ _ => Lists.of_filter) id id hcycle)

/-- A selection that breaks no tree leaves a valid registry. -/
theorem validate_filter (hvalid : registry.validate = .ok ()) (hunbroken : registry.IsUnbroken keep) :
    (registry.filter keep).validate = .ok () := by
  have hwell := wellFormed_of_validate hvalid
  have hother : (registry.filter keep).WellFormed :=
    ⟨hwell.forest.filter hunbroken, fun p hp => hwell.primitives p (mem_filter.1 hp).1⟩
  rw [validate, hother.failures_eq_nil]

/-! ## Whole trees -/

/-- Whether a primitive is below one of the roots that are kept. -/
def isBelow (registry : Registry) (keep : Primitive → Bool) (p : Primitive) : Bool :=
  registry.roots.any fun root => keep root && (registry.tree root).ids.contains p.id

/-- The registry of the trees below some of the roots. -/
def only (registry : Registry) (keep : Primitive → Bool) : Registry := registry.filter (registry.isBelow keep)

/-- A primitive is below a selected root if its id is in the tree of one. -/
theorem isBelow_iff : registry.isBelow keep p = true ↔
    ∃ root ∈ registry.roots, keep root = true ∧ p.id ∈ (registry.tree root).ids := by
  simp only [isBelow, List.any_eq_true, Bool.and_eq_true, List.contains_iff_mem]

/-- A primitive is in the tree of its parent, and in no other one. -/
theorem IsForest.mem_tree_iff (hforest : registry.IsForest) (hroot : root ∈ registry.roots) (hlists : registry.Lists id child) :
    id ∈ (registry.tree root).ids ↔ child ∈ (registry.tree root).ids := by
  have hdown : ∀ other ∈ registry.roots, id ∈ (registry.tree other).ids → child ∈ (registry.tree other).ids := by
    intro other hother hin
    have hgrown := hforest.grown_tree hother
    exact hgrown.mem_ids_of_reflTransGen ((hgrown.reflTransGen id hin).tail hlists)
  refine ⟨hdown root hroot, fun hin => ?_⟩
  obtain ⟨other, hother, hinOther⟩ := hforest.mem_ids_iff.1 hlists.mem_ids
  rwa [hforest.root_unique hroot hother hin (hdown other hother hinOther)]

/-- Whole trees are not broken, as no primitive of a forest is in two of them. -/
theorem IsForest.isUnbroken_isBelow (hforest : registry.IsForest) : registry.IsUnbroken (registry.isBelow keep) := by
  intro p hp q hq hchild
  rw [Bool.eq_iff_iff, isBelow_iff, isBelow_iff]
  refine exists_congr fun root => and_congr_right fun hroot => and_congr_right fun _ => ?_
  exact hforest.mem_tree_iff hroot ⟨p, hp, rfl, hchild⟩

/-- Some trees of a valid registry make up a valid registry. -/
theorem only_validate (hvalid : registry.validate = .ok ()) : (registry.only keep).validate = .ok () :=
  validate_filter hvalid (wellFormed_of_validate hvalid).forest.isUnbroken_isBelow

/-- A registry cut down to some trees holds all primitives of these. -/
theorem mem_only (hroot : root ∈ registry.roots) (hkeep : keep root = true) (hp : p ∈ registry.primitives)
    (hin : p.id ∈ (registry.tree root).ids) : p ∈ (registry.only keep).primitives :=
  mem_filter.2 ⟨hp, isBelow_iff.2 ⟨root, hroot, hkeep, hin⟩⟩

/-- Its roots are the roots that are kept. -/
theorem IsForest.roots_only (hforest : registry.IsForest) : (registry.only keep).roots = registry.roots.filter keep := by
  have hbelow : ∀ p ∈ registry.roots, registry.isBelow keep p = keep p := by
    intro p hp
    have htop : p.id ∈ (registry.tree p).ids := by
      have hin := Tree.top_mem_ids (registry.tree p)
      rwa [tree_top] at hin
    rw [Bool.eq_iff_iff, isBelow_iff]
    constructor
    · rintro ⟨root, hroot, hkeep, hin⟩
      rwa [hforest.root_unique hp hroot htop hin]
    · intro hkeep
      exact ⟨p, hp, hkeep, htop⟩
  show (registry.primitives.filter _).filter _ = _
  rw [List.filter_comm]
  exact List.filter_congr hbelow

end Registry

end Prebake
