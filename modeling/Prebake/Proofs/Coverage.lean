import Mathlib.Algebra.GroupWithZero.Nat
import Prebake.Proofs.Resolution

/-!
# Nothing is lost

A resolution covers its registry (`Resolution.Covers`): it tells of every registered primitive and of nothing else, counts
each of them once, and lists the trees of all roots with the markup of their roots. This holds of every resolution of a
valid registry because the trees of its roots take the registry apart (`resolve_covers`).
-/

namespace Prebake

/-- A resolution tells of what is in a registry, and of nothing else. -/
structure Resolution.Covers (resolution : Resolution) (registry : Registry) : Prop where
  /-- The primitives of which it is told what has become of them are those of the registry. -/
  states : ∀ id, id ∈ resolution.states.names ↔ id ∈ registry.ids
  /-- The primitives of which attempts are counted are those of the registry. -/
  evaluations : ∀ id, id ∈ resolution.evaluations.names ↔ id ∈ registry.ids
  nodes : resolution.stats.nodes = registry.size
  /-- There is a tree for each primitive without a parent, in the order of the registry. -/
  trees : resolution.trees.map (·.root) = (registry.primitives.filter fun p => p.parent? = none).map (·.id)
  /-- A tree has the markup that its root has, if its root has any. -/
  markup : ∀ tree ∈ resolution.trees, ∀ html,
    tree.rendered?.map (·.html) = some html ↔ resolution.state? tree.root = some (.resolved html)

namespace Registry

variable {registry : Registry} {root : Primitive} {id : String}

/-! ## Single trees -/

/-- The visit of a tree finds something about a primitive exactly if the primitive is in the tree. -/
theorem IsForest.contains_attempts (hforest : registry.IsForest) (hroot : root ∈ registry.roots) :
    (registry.visitTree root).2.attempts.contains id = true ↔ id ∈ (registry.tree root).ids := by
  constructor
  · intro hfound
    by_contra hid
    rw [NameMap.contains, (hforest.sameAt_visitTree hroot hid).attempt] at hfound
    cases hfound
  · intro hid
    exact hforest.isSome_find?_attempts hroot hid

/-- The visit of a tree counts attempts of a primitive exactly if the primitive is in the tree. -/
theorem IsForest.contains_evaluations (hforest : registry.IsForest) (hroot : root ∈ registry.roots) :
    (registry.visitTree root).2.evaluations.contains id = true ↔ id ∈ (registry.tree root).ids := by
  constructor
  · intro hfound
    by_contra hid
    rw [NameMap.contains, (hforest.sameAt_visitTree hroot hid).evaluations] at hfound
    cases hfound
  · intro hid
    obtain ⟨p, way, hp, rfl⟩ := Tree.exists_mem_places [] hid
    have hevaluated := ((hforest.visited_visitTree hroot).settled p way hp).evaluated
    rw [NameMap.contains]
    unfold Progress.evaluationsOf at hevaluated
    cases hcount : (registry.visitTree root).2.evaluations.find? p.id with
    | none =>
      rw [hcount] at hevaluated
      exact absurd hevaluated (by decide)
    | some count => rfl

/-- The visit of a tree finds something about as many primitives as are in the tree. -/
theorem IsForest.size_attempts (hforest : registry.IsForest) (hroot : root ∈ registry.roots) :
    (registry.visitTree root).2.attempts.size = (registry.tree root).ids.length :=
  NameMap.size_eq_length (hforest.nodup_ids_tree hroot) fun _ => hforest.contains_attempts hroot

/-! ## All trees -/

/-- All visits together find something about as many primitives as are registered. -/
theorem IsForest.sum_size_attempts (hforest : registry.IsForest) :
    (registry.roots.map fun root => (registry.visitTree root).2.attempts.size).sum = registry.size := by
  have hsizes : (registry.roots.map fun root => (registry.visitTree root).2.attempts.size) =
      (registry.roots.map registry.tree).map fun tree => tree.ids.length := by
    rw [List.map_map]
    exact List.map_congr_left fun root hroot => hforest.size_attempts hroot
  rw [hsizes, ← List.length_flatMap, hforest.perm_ids.length_eq, ids, List.length_map, size]

/-- It is told of every registered primitive what has become of it. -/
theorem IsForest.mem_names_states (hforest : registry.IsForest) :
    id ∈ (registry.addTrees Resolution.empty registry.roots).states.names ↔ id ∈ registry.ids := by
  rw [NameMap.mem_names_iff, states_eq_mapValues_attempts, NameMap.contains_mapValues, attempts,
    NameMap.contains_foldl_union, hforest.mem_ids_iff]
  refine (or_iff_right ?_).trans ?_
  · intro hempty
    cases hempty
  · exact exists_congr fun root => and_congr_right fun hroot => hforest.contains_attempts hroot

/-- Evaluations are counted for all registered primitives and for nothing else. -/
theorem IsForest.mem_names_evaluations (hforest : registry.IsForest) :
    id ∈ (registry.addTrees Resolution.empty registry.roots).evaluations.names ↔ id ∈ registry.ids := by
  rw [NameMap.mem_names_iff, evaluations_addTrees, NameMap.contains_foldl_union, hforest.mem_ids_iff]
  refine (or_iff_right ?_).trans ?_
  · intro hempty
    cases hempty
  · exact exists_congr fun root => and_congr_right fun hroot => hforest.contains_evaluations hroot

/-- There is a tree for each primitive without a parent. -/
theorem map_root_trees (registry : Registry) : (registry.addTrees Resolution.empty registry.roots).trees.map (·.root) =
    (registry.primitives.filter fun p => p.parent? = none).map (·.id) := by
  have hroots : registry.primitives.filter Primitive.isRoot = registry.primitives.filter fun p => p.parent? = none :=
    List.filter_congr fun p _ => by rw [Primitive.isRoot]; cases p.parent? <;> rfl
  rw [trees_addTrees]
  show List.map _ ([] ++ _) = _
  rw [List.nil_append, List.map_map, roots, hroots]
  rfl

/-- What the visit of a tree found of its root is told of the root. -/
theorem IsForest.state?_root (hforest : registry.IsForest) (hroot : root ∈ registry.roots) :
    (registry.addTrees Resolution.empty registry.roots).state? root.id =
      ((registry.visitTree root).2.attempts.find? root.id).map Attempt.state := by
  rw [hforest.state?_addTrees hroot (id_mem_ids_tree registry root), state?_resolveTree]

/-- What the visits of all trees found covers the registry. -/
theorem IsForest.covers (hforest : registry.IsForest) :
    (registry.addTrees Resolution.empty registry.roots).Covers registry where
  states _ := hforest.mem_names_states
  evaluations _ := hforest.mem_names_evaluations
  nodes := by
    rw [count_addTrees Stats.nodes fun _ _ => rfl]
    exact (Nat.zero_add _).trans hforest.sum_size_attempts
  trees := registry.map_root_trees
  markup := by
    intro tree htree html
    rw [trees_addTrees] at htree
    obtain ⟨root, hroot, rfl⟩ := List.mem_map.1 htree
    rw [hforest.state?_root hroot]
    dsimp only
    unfold Progress.rendered?
    rcases (registry.visitTree root).2.attempts.find? root.id with _ | (reason | rendered) <;>
      simp [Attempt.state]

/-- In a valid registry nothing is lost and nothing is visited twice. Below each root, going on to registered children comes
to an end on every way, and the only tree that leaves nothing out is the one that is visited; every primitive is in the tree
of one root only, and there it is once. A resolution that succeeds covers the registry. -/
theorem resolve_covers (hvalid : registry.validate = .ok ()) :
    (∀ root ∈ registry.roots, Acc (fun child parent => child ∈ registry.childrenOf parent) root ∧
      ∀ tree : Tree, tree.top = root ∧ tree.Complete registry ↔ tree = registry.tree root) ∧
    (∀ p ∈ registry.primitives, ∃ root ∈ registry.roots, (registry.tree root).ids.count p.id = 1 ∧
      ∀ other ∈ registry.roots, p.id ∈ (registry.tree other).ids → other = root) ∧
    (∀ root ∈ registry.roots, (registry.tree root).ids.Nodup ∧ (registry.tree root).ids ⊆ registry.ids) ∧
    ∀ config resolution, registry.resolve config = .ok resolution → resolution.Covers registry := by
  have hforest := (wellFormed_of_validate hvalid).forest
  refine ⟨?_, ?_, ?_, ?_⟩
  · intro root hroot
    have hcomplete := hforest.complete_tree (List.mem_filter.1 hroot).1
    have hacc := hcomplete.acc
    rw [tree_top] at hacc
    refine ⟨hacc, fun tree => ⟨?_, ?_⟩⟩
    · rintro ⟨htop, hother⟩
      exact hother.eq hcomplete (htop.trans (tree_top registry root).symm)
    · rintro rfl
      exact ⟨tree_top registry root, hcomplete⟩
  · intro p hp
    obtain ⟨root, hroot, hin⟩ := hforest.exists_root hp
    refine ⟨root, hroot, List.count_eq_one_of_mem (hforest.nodup_ids_tree hroot) hin, ?_⟩
    intro other hother hin'
    exact hforest.root_unique hother hroot hin' hin
  · intro root hroot
    exact ⟨hforest.nodup_ids_tree hroot, (hforest.grown_tree hroot).subset_ids⟩
  · intro config resolution hresolve
    obtain ⟨-, rfl⟩ := resolve_eq_ok hresolve
    exact hforest.covers

/-- Everything in the gallery is visited once, and the resolution tells of all of it. -/
theorem gallery_covered : gallery.validate = .ok () ∧
    (∀ root ∈ gallery.roots, Acc (fun child parent => child ∈ gallery.childrenOf parent) root) ∧
    (∀ p ∈ gallery.primitives, ∃ root ∈ gallery.roots, (gallery.tree root).ids.count p.id = 1) ∧
    ∃ resolution, gallery.resolve {} = .ok resolution ∧ resolution.Covers gallery := by
  have hvalid : gallery.validate = .ok () := by rfl
  have hresolved : (gallery.resolve {}).toBool = true := by rfl
  obtain ⟨htrees, hplaces, -, hcovers⟩ := resolve_covers hvalid
  refine ⟨hvalid, fun root hroot => (htrees root hroot).1, fun p hp => ?_, ?_⟩
  · obtain ⟨root, hroot, hcount, -⟩ := hplaces p hp
    exact ⟨root, hroot, hcount⟩
  · cases hresolve : gallery.resolve {} with
    | error failure =>
      rw [hresolve] at hresolved
      cases hresolved
    | ok resolution => exact ⟨resolution, rfl, hcovers {} resolution hresolve⟩

end Registry

end Prebake
