import Prebake.Proofs.Owners
import Prebake.Proofs.Registry.Partition

/-!
# Registries under other ids

One registry may hold what another one holds, under other ids and in another order, and with more primitives beside it. If
different ids of a tree stay different, the tree below the root is the same tree under the other ids
(`HoldsTree.tree_eq`), whatever else the registry holds. A registry that holds nothing else is valid if the other one is
(`Relabels.validate`).
-/

namespace Prebake

open Relation

variable {r : String → String} {registry other : Registry}

/-! ## Trees -/

namespace Tree

mutual

/-- The tree under other ids. -/
def relabel (r : String → String) : Tree → Tree
  | node p children => node (p.relabel r) (relabelAll r children)

/-- The trees under other ids. -/
def relabelAll (r : String → String) : List Tree → List Tree
  | [] => []
  | tree :: trees => relabel r tree :: relabelAll r trees

end

theorem relabelAll_eq (trees : List Tree) : relabelAll r trees = trees.map (relabel r) := by
  induction trees with
  | nil => rfl
  | cons tree trees ih => rw [relabelAll, ih, List.map_cons]

theorem relabel_node (p : Primitive) (children : List Tree) :
    (node p children).relabel r = node (p.relabel r) (children.map (relabel r)) := by rw [relabel, relabelAll_eq]

theorem top_relabel (tree : Tree) : (tree.relabel r).top = tree.top.relabel r := by
  cases tree
  rw [relabel, top, top]

/-- The places in a relabelled tree are the relabelled places. -/
theorem places_relabel (above : List Primitive) (tree : Tree) :
    (tree.relabel r).places (above.map (Primitive.relabel r)) =
      (tree.places above).map (Prod.map (Primitive.relabel r) (List.map (Primitive.relabel r))) := by
  cases tree with
  | node p children =>
    have hchildren : ∀ tree ∈ children,
        (tree.relabel r).places ((p :: above).map (Primitive.relabel r)) =
          (tree.places (p :: above)).map (Prod.map (Primitive.relabel r) (List.map (Primitive.relabel r))) :=
      fun tree _ => places_relabel (p :: above) tree
    rw [relabel_node, places_node, places_node, List.map_append, List.map_flatMap, List.flatMap_map]
    congr 1
    exact List.flatMap_congr hchildren

/-- The ids in a relabelled tree are the other ids, in the same order. -/
theorem ids_relabel (tree : Tree) : (tree.relabel r).ids = tree.ids.map r := by
  have hplaces := tree.places_relabel (r := r) []
  rw [← map_id_places [] tree, ← map_id_places [] (tree.relabel r), ← List.map_nil, hplaces, List.map_map, List.map_map]
  rfl

/-- A tree of one registry is complete in any other registry that holds its primitives under other ids. -/
theorem Grown.complete_relabel {above : List Primitive} {tree : Tree} (h : Grown registry above tree)
    (hheld : ∀ p way, (p, way) ∈ tree.places above → p.relabel r ∈ other.primitives) :
    Complete other (tree.relabel r) := by
  induction h with
  | @node p above children _ hids _ ih =>
    simp only [places_node, List.mem_append, List.mem_flatMap, List.mem_singleton] at hheld
    have hbelow : ∀ tree ∈ children, ∀ q way, (q, way) ∈ tree.places (p :: above) → q.relabel r ∈ other.primitives :=
      fun tree htree q way hq => hheld q way (Or.inl ⟨tree, htree, hq⟩)
    rw [relabel_node]
    refine Complete.node ?_ (List.forall_mem_map.2 fun tree htree => ih tree htree (hbelow tree htree))
    have htops : ∀ tree ∈ children, other.find? (r tree.top.id) = some (tree.relabel r).top := by
      intro tree htree
      have hfound := Registry.find?_of_mem (hbelow tree htree _ _ (top_mem_places _ tree))
      rw [top_relabel]
      exact hfound
    have hchildren : (p.relabel r).children = children.map fun tree => r tree.top.id := by
      show p.children.map r = _
      rw [← hids, List.map_map]
      rfl
    rw [Registry.childrenOf, hchildren, List.filterMap_map, List.map_map, ← List.filterMap_eq_map]
    exact List.filterMap_congr fun tree htree => (htops tree htree).symm

end Tree

/-! ## A tree inside another registry -/

namespace Registry

variable {root : Primitive}

/-- Another registry holds the tree below a root under other ids, and different ids of the tree are different there too. -/
structure HoldsTree (other registry : Registry) (r : String → String) (root : Primitive) : Prop where
  isRoot : root ∈ registry.roots
  primitives : ∀ p ∈ registry.primitives, p.id ∈ (registry.tree root).ids → p.relabel r ∈ other.primitives
  injective : {id | id ∈ (registry.tree root).ids}.InjOn r

/-- A root is a root under another id, since it has no parent to be relabelled. -/
theorem isRoot_relabel (p : Primitive) : (p.relabel r).isRoot = p.isRoot := Option.isNone_map ..

namespace HoldsTree

variable (h : other.HoldsTree registry r root) (hforest : registry.IsForest) (hother : other.IsForest)

include h hforest

/-- What has a place in the tree is registered in the other registry, under its other id. -/
theorem relabel_mem_of_mem_places {p : Primitive} {way : List Primitive} (hp : (p, way) ∈ (registry.tree root).places []) :
    p.relabel r ∈ other.primitives :=
  h.primitives p ((hforest.grown_tree h.isRoot).registered_of_mem_places hp) (Tree.mem_ids_of_mem_places hp)

/-- The root of the tree is a root of the other registry. -/
theorem root_mem : root.relabel r ∈ other.roots := by
  have htop := Tree.top_mem_places [] (registry.tree root)
  rw [tree_top] at htop
  refine List.mem_filter.2 ⟨h.relabel_mem_of_mem_places hforest htop, ?_⟩
  rw [isRoot_relabel]
  exact (List.mem_filter.1 h.isRoot).2

include hother

/-- The other registry has the same tree below the root, under the other ids. -/
theorem tree_eq : other.tree (root.relabel r) = (registry.tree root).relabel r := by
  have hroot := (List.mem_filter.1 (h.root_mem hforest)).1
  have hcomplete := (hforest.grown_tree h.isRoot).complete_relabel fun p way hp => h.relabel_mem_of_mem_places hforest hp
  refine (hother.complete_tree hroot).eq hcomplete ?_
  rw [tree_top, Tree.top_relabel, tree_top]

end HoldsTree

/-! ## The same registry under other ids -/

/-- Another registry holds the same primitives under other ids, in whatever order, and different ids are different there
too. -/
structure Relabels (other registry : Registry) (r : String → String) : Prop where
  perm : other.primitives.Perm (registry.primitives.map (Primitive.relabel r))
  injective : {id | id ∈ registry.ids}.InjOn r

theorem map_id_relabel (registry : Registry) :
    (registry.primitives.map (Primitive.relabel r)).map (·.id) = registry.ids.map r := by
  rw [ids, List.map_map, List.map_map]
  rfl

/-- There is such a registry for every order, and for all ids that are told apart. -/
theorem exists_relabels (registry : Registry) {primitives : List Primitive}
    (hperm : primitives.Perm (registry.primitives.map (Primitive.relabel r)))
    (hinj : {id | id ∈ registry.ids}.InjOn r) :
    ∃ other : Registry, other.primitives = primitives ∧ other.Relabels registry r := by
  have hids : (primitives.map (·.id)).Perm (registry.ids.map r) := registry.map_id_relabel ▸ hperm.map (·.id)
  exact ⟨⟨none, primitives, hids.nodup_iff.2 (registry.nodup.map_on hinj)⟩, rfl, hperm, hinj⟩

namespace Relabels

variable (h : other.Relabels registry r)

include h

/-- The other registry holds the relabelled primitives and nothing else. -/
theorem mem_primitives {p : Primitive} : p ∈ other.primitives ↔ ∃ q ∈ registry.primitives, q.relabel r = p := by
  rw [h.perm.mem_iff, List.mem_map]

/-- The other registry has the other ids, in some order. -/
theorem perm_ids : other.ids.Perm (registry.ids.map r) := registry.map_id_relabel ▸ h.perm.map Primitive.id

/-- The other registry has the relabelled roots, in some order. -/
theorem perm_roots : other.roots.Perm (registry.roots.map (Primitive.relabel r)) := by
  refine (h.perm.filter Primitive.isRoot).trans (List.Perm.of_eq ?_)
  rw [List.filter_map]
  exact congrArg _ (List.filter_congr fun p _ => isRoot_relabel p)

/-- A registry under other ids holds each tree under these. -/
theorem holdsTree (hforest : registry.IsForest) {root : Primitive} (hroot : root ∈ registry.roots) :
    other.HoldsTree registry r root where
  isRoot := hroot
  primitives p hp _ := h.mem_primitives.2 ⟨p, hp, rfl⟩
  injective := h.injective.mono fun _ hid => (hforest.grown_tree hroot).subset_ids hid

/-- The lists of children are the same but for the ids. -/
theorem lists_iff {parent child : String} :
    other.Lists parent child ↔ ∃ p c, registry.Lists p c ∧ r p = parent ∧ r c = child := by
  constructor
  · rintro ⟨q, hq, rfl, hchild⟩
    obtain ⟨p, hp, rfl⟩ := h.mem_primitives.1 hq
    obtain ⟨c, hc, rfl⟩ := List.mem_map.1 hchild
    exact ⟨p.id, c, ⟨p, hp, rfl, hc⟩, rfl, rfl⟩
  · rintro ⟨_, c, ⟨p, hp, rfl, hc⟩, rfl, rfl⟩
    exact ⟨p.relabel r, h.mem_primitives.2 ⟨p, hp, rfl⟩, rfl, List.mem_map_of_mem hc⟩

/-- A way down in the other registry is a way down under the ids of this one. -/
theorem exists_transGen (hforest : registry.IsForest) {a b : String} (hdown : TransGen other.Lists a b) :
    ∃ p c, TransGen registry.Lists p c ∧ p ∈ registry.ids ∧ c ∈ registry.ids ∧ r p = a ∧ r c = b := by
  have hregistered : ∀ {p c}, registry.Lists p c → c ∈ registry.ids := fun ⟨p, hp, _, hc⟩ =>
    hforest.children_registered p hp _ hc
  induction hdown with
  | single hlists =>
    obtain ⟨p, c, hpc, rfl, rfl⟩ := h.lists_iff.1 hlists
    exact ⟨p, c, .single hpc, hpc.mem_ids, hregistered hpc, rfl, rfl⟩
  | tail _ hlists ih =>
    obtain ⟨p, middle, hdown, hp, hmiddle, rfl, rfl⟩ := ih
    obtain ⟨parent, c, hpc, hparent, rfl⟩ := h.lists_iff.1 hlists
    rw [h.injective hpc.mem_ids hmiddle hparent] at hpc
    exact ⟨p, c, hdown.tail hpc, hp, hregistered hpc, rfl, rfl⟩

/-- Neither the order of a forest nor its ids matter for its being one. -/
theorem isForest (hforest : registry.IsForest) : other.IsForest where
  children_registered := by
    intro q hq child hchild
    obtain ⟨p, hp, rfl⟩ := h.mem_primitives.1 hq
    obtain ⟨c, hc, rfl⟩ := List.mem_map.1 hchild
    exact h.perm_ids.mem_iff.2 (List.mem_map_of_mem (hforest.children_registered p hp c hc))
  parents_registered := by
    intro q hq parent hparent
    obtain ⟨p, hp, rfl⟩ := h.mem_primitives.1 hq
    obtain ⟨original, horiginal, rfl⟩ := Option.map_eq_some_iff.1 hparent
    exact h.perm_ids.mem_iff.2 (List.mem_map_of_mem (hforest.parents_registered p hp original horiginal))
  listed_once := by
    -- the other ids are listed as often as those they stand for, and registered ids stay apart
    have hperm : (other.primitives.flatMap (·.children)).Perm ((registry.primitives.flatMap (·.children)).map r) := by
      refine (h.perm.flatMap_right _).trans (List.Perm.of_eq ?_)
      rw [List.flatMap_map, List.map_flatMap]
      rfl
    refine hperm.nodup_iff.2 (hforest.listed_once.map_on fun a ha b hb hsame => ?_)
    have hlisted : ∀ id ∈ registry.primitives.flatMap (·.children), id ∈ registry.ids := by
      intro id hid
      obtain ⟨p, hp, hchild⟩ := List.mem_flatMap.1 hid
      exact hforest.children_registered p hp id hchild
    exact h.injective (hlisted a ha) (hlisted b hb) hsame
  lists_iff := by
    intro q hq d hd
    obtain ⟨p, hp, rfl⟩ := h.mem_primitives.1 hq
    obtain ⟨c, hc, rfl⟩ := h.mem_primitives.1 hd
    have hlists := hforest.lists_iff p hp c hc
    constructor
    · intro hin
      obtain ⟨child, hchild, hsame⟩ := List.mem_map.1 hin
      have heq := h.injective (hforest.children_registered p hp child hchild) (id_mem_ids hc) hsame
      rw [heq] at hchild
      exact congrArg (Option.map r) (hlists.1 hchild)
    · intro hparent
      obtain ⟨parent, hdeclared, hsame⟩ := Option.map_eq_some_iff.1 hparent
      have heq := h.injective (hforest.parents_registered c hc parent hdeclared) (id_mem_ids hp) hsame
      rw [heq] at hdeclared
      exact List.mem_map_of_mem (hlists.2 hdeclared)
  acyclic := by
    intro id hcycle
    -- a cycle under the other ids is one under the ids that they stand for
    obtain ⟨p, c, hdown, hp, hc, rfl, hsame⟩ := h.exists_transGen hforest hcycle
    rw [h.injective hc hp hsame] at hdown
    exact hforest.acyclic p hdown

/-- Neither the order of a valid registry nor its ids matter for its being valid. -/
theorem validate (hvalid : registry.validate = .ok ()) : other.validate = .ok () := by
  have hwell := wellFormed_of_validate hvalid
  have hother : other.WellFormed := by
    refine ⟨h.isForest hwell.forest, fun q hq => ?_⟩
    obtain ⟨p, hp, rfl⟩ := h.mem_primitives.1 hq
    obtain ⟨htag, hnames, hclassified⟩ := hwell.primitives p hp
    exact ⟨htag, hnames, hclassified⟩
  rw [Registry.validate, hother.failures_eq_nil]

end Relabels

end Registry

end Prebake
