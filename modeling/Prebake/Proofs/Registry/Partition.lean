import Prebake.Proofs.Registry.Places

/-!
# The trees of a forest hold every primitive once

A visit that goes from a primitive to each of its registered children, and on from there, runs along a tree. In a forest
this tree is finite, and it is the tree that `Registry.tree` grows: the bound on its depth cuts nothing off
(`IsForest.complete_tree`, `Tree.Complete.eq`). Every primitive is below exactly one root, and the trees of all roots
together hold the ids of the registry, each of them once (`IsForest.perm_ids`).
-/

namespace Prebake

open Relation

namespace Tree

/-- A tree leaves nothing out: right below each primitive in it stand the trees of its registered children, in order. -/
inductive Complete (registry : Registry) : Tree → Prop where
  | node {p : Primitive} {children : List Tree} : children.map top = registry.childrenOf p →
      (∀ tree ∈ children, Complete registry tree) → Complete registry (.node p children)

variable {registry : Registry} {tree other : Tree} {above : List Primitive} {p root : Primitive} {id : String}

namespace Complete

/-- From the top of a complete tree, going on to registered children comes to an end on every way. -/
theorem acc (h : Complete registry tree) : Acc (fun child parent => child ∈ registry.childrenOf parent) tree.top := by
  induction h with
  | @node p children htops _ ih =>
    constructor
    intro child hchild
    rw [top, ← htops] at hchild
    obtain ⟨tree, htree, rfl⟩ := List.mem_map.1 hchild
    exact ih tree htree

/-- Trees with the same tops are the same, if each of them is known by its top. -/
theorem eq_of_map_top {trees others : List Tree} (htops : trees.map top = others.map top)
    (hknown : ∀ tree ∈ trees, ∀ other ∈ others, tree.top = other.top → tree = other) : trees = others := by
  induction trees generalizing others with
  | nil =>
    have hnil : others = [] := List.map_eq_nil_iff.1 htops.symm
    rw [hnil]
  | cons tree trees ih =>
    cases others with
    | nil => cases htops
    | cons other others =>
      obtain ⟨htop, hrest⟩ := List.cons.inj htops
      rw [hknown tree List.mem_cons_self other List.mem_cons_self htop,
        ih hrest fun tree htree other hother =>
          hknown tree (List.mem_cons_of_mem _ htree) other (List.mem_cons_of_mem _ hother)]

/-- There is only one complete tree below a primitive. -/
theorem eq (h : Complete registry tree) (hother : Complete registry other) (htop : tree.top = other.top) :
    tree = other := by
  induction h generalizing other with
  | @node p children htops _ ih =>
    cases hother with
    | @node q others hothers hbelow =>
      obtain rfl : p = q := htop
      have hchildren : children = others := by
        refine eq_of_map_top (htops.trans hothers.symm) ?_
        intro tree htree other hother hsame
        exact ih tree htree (hbelow other hother) hsame
      rw [hchildren]

end Complete

namespace Grown

/-- A whole tree leaves nothing out. -/
theorem complete (h : Grown registry above tree) : Complete registry tree := by
  induction h with
  | @node p above children _ hids hbelow ih =>
    refine Complete.node ?_ ih
    have htops : ∀ tree ∈ children, registry.find? tree.top.id = some tree.top := by
      intro tree htree
      have hplace := top_mem_places [] tree
      exact Registry.find?_of_mem ((hbelow tree htree).registered_of_mem_places hplace)
    rw [Registry.childrenOf, ← hids, List.filterMap_map, ← List.filterMap_eq_map]
    exact List.filterMap_congr fun tree htree => (htops tree htree).symm

/-- A whole tree holds whatever its top leads down to. -/
theorem mem_ids_of_reflTransGen (h : Grown registry above tree) (hdown : ReflTransGen registry.Lists tree.top.id id) :
    id ∈ tree.ids := by
  induction hdown with
  | refl => exact top_mem_ids tree
  | tail _ hlists ih =>
    obtain ⟨q, way, hq, rfl⟩ := exists_mem_places [] ih
    obtain ⟨p, hp, hsame, hchild⟩ := hlists
    rw [Registry.eq_of_id_eq hp (h.registered_of_mem_places hq) hsame] at hchild
    exact h.child_mem_ids hq hchild

/-- A whole tree holds registered primitives only. -/
theorem subset_ids (h : Grown registry above tree) : tree.ids ⊆ registry.ids := by
  intro id hid
  obtain ⟨p, way, hp, rfl⟩ := exists_mem_places [] hid
  exact Registry.id_mem_ids (h.registered_of_mem_places hp)

end Grown

end Tree

namespace Registry

variable {registry : Registry} {p root : Primitive} {id : String}

theorem tree_top (registry : Registry) (p : Primitive) : (registry.tree p).top = p := by
  unfold tree
  cases registry.size <;> rfl

/-- A primitive is in the tree that is grown from it. -/
theorem id_mem_ids_tree (registry : Registry) (p : Primitive) : p.id ∈ (registry.tree p).ids := by
  have hin := Tree.top_mem_ids (registry.tree p)
  rwa [tree_top] at hin

/-- Each primitive has one place, at which its way up to a root is known. -/
structure AllPlaced (registry : Registry) : Prop where
  once : (registry.places.map (·.1)).Perm registry.primitives
  upwards : ∀ p way, (p, way) ∈ registry.places →
    registry.IsLineage (p :: way) ∧ ∃ root ∈ registry.roots, (p :: way).getLast? = some root

namespace IsForest

/-- The tree below any primitive is whole. -/
theorem grown_tree_of_mem (hforest : registry.IsForest) (hp : p ∈ registry.primitives) :
    Tree.Grown registry [] (registry.tree p) := by
  refine hforest.grown_treeBelow ⟨?_, List.isChain_singleton _⟩ (Nat.le_refl _)
  intro q hq
  rw [List.mem_singleton.1 hq]
  exact hp

/-- The tree below a primitive leaves nothing out. -/
theorem complete_tree (hforest : registry.IsForest) (hp : p ∈ registry.primitives) :
    (registry.tree p).Complete registry :=
  (hforest.grown_tree_of_mem hp).complete

/-! ## Roots -/

/-- A way up that could be longer than the registry leads on to a root. -/
theorem exists_root_above (hforest : registry.IsForest) (steps : Nat) {way : List Primitive} {last : Primitive}
    (hlineage : registry.IsLineage (way ++ [last])) (hsteps : registry.size ≤ way.length + steps) :
    ∃ root ∈ registry.roots, ReflTransGen registry.Lists root.id last.id := by
  induction steps generalizing way last with
  | zero =>
    -- a way up repeats no primitive, so it is never longer than the registry
    have hlength := hlineage.length_le hforest
    rw [List.length_append, List.length_singleton] at hlength
    omega
  | succ steps ih =>
    have hlast : last ∈ registry.primitives := hlineage.registered last (by simp)
    cases hparent : last.parent? with
    | none =>
      have hroot : last ∈ registry.roots := List.mem_filter.2 ⟨hlast, by rw [Primitive.isRoot, hparent]; rfl⟩
      exact ⟨last, hroot, ReflTransGen.refl⟩
    | some parent =>
      obtain ⟨q, hq, rfl⟩ := mem_ids.1 (hforest.parents_registered last hlast parent hparent)
      have hup : registry.parentOf? last = some q := parentOf?_eq_some_iff.2 ⟨hq, hparent⟩
      have hlonger : registry.IsLineage (way ++ [last] ++ [q]) := by
        constructor
        · intro r hr
          rcases List.mem_append.1 hr with hr | hr
          · exact hlineage.registered r hr
          · rw [List.mem_singleton.1 hr]
            exact hq
        · refine hlineage.parents.append (List.isChain_singleton q) ?_
          intro a ha b hb
          rw [List.getLast?_concat, Option.mem_some_iff] at ha
          rw [List.head?_cons, Option.mem_some_iff] at hb
          rw [← ha, ← hb]
          exact hup
      obtain ⟨root, hroot, hdown⟩ := ih hlonger (by simp only [List.length_append, List.length_singleton]; omega)
      exact ⟨root, hroot, hdown.tail (hforest.lists_of_parentOf? hlast hup)⟩

/-- Every primitive is in the tree of some root. -/
theorem exists_root (hforest : registry.IsForest) (hp : p ∈ registry.primitives) :
    ∃ root ∈ registry.roots, p.id ∈ (registry.tree root).ids := by
  have hplace := Tree.top_mem_places [] (registry.tree p)
  rw [tree_top] at hplace
  have hlineage : registry.IsLineage ([] ++ [p]) := (hforest.grown_tree_of_mem hp).lineage_of_mem_places hplace
  obtain ⟨root, hroot, hdown⟩ := hforest.exists_root_above registry.size hlineage (by omega)
  refine ⟨root, hroot, (hforest.grown_tree hroot).mem_ids_of_reflTransGen ?_⟩
  rwa [tree_top]

/-- Nothing but a root itself leads down to it. -/
theorem eq_of_reflTransGen_root (hforest : registry.IsForest) (hroot : root ∈ registry.roots)
    (h : ReflTransGen registry.Lists id root.id) : id = root.id := by
  rcases ReflTransGen.cases_tail_iff _ _ _ |>.1 h with hsame | ⟨parent, -, hlists⟩
  · exact hsame.symm
  · exact absurd hlists (hforest.not_lists_root hroot)

/-! ## All trees -/

/-- In the order of a visit of all trees, what comes later is not below what came earlier. -/
theorem pairwise_ids (hforest : registry.IsForest) :
    ((registry.roots.map registry.tree).flatMap Tree.ids).Pairwise fun earlier later =>
      ¬ReflTransGen registry.Lists earlier later := by
  have hgrown : ∀ tree ∈ registry.roots.map registry.tree, Tree.Grown registry [] tree := by
    intro tree htree
    obtain ⟨root, hroot, rfl⟩ := List.mem_map.1 htree
    exact hforest.grown_tree hroot
  refine Tree.Grown.pairwise_flatMap_ids hforest (fun tree htree => (hgrown tree htree).reflTransGen) ?_
    fun tree htree => (hgrown tree htree).pairwise_ids hforest
  have hnodup : (registry.roots.map (·.id)).Nodup := registry.nodup.sublist (List.filter_sublist.map _)
  refine List.pairwise_map.2 ((List.pairwise_map.1 hnodup).imp_of_mem fun {a b} ha hb hne => ?_)
  rw [tree_top, tree_top]
  exact ⟨fun hab => hne (hforest.eq_of_reflTransGen_root hb hab),
    fun hba => hne (hforest.eq_of_reflTransGen_root ha hba).symm⟩

/-- A visit of all trees does not come to an id twice. -/
theorem nodup_ids (hforest : registry.IsForest) : ((registry.roots.map registry.tree).flatMap Tree.ids).Nodup := by
  refine hforest.pairwise_ids.imp ?_
  rintro id _ hbelow rfl
  exact hbelow ReflTransGen.refl

/-- The visit of one tree does not come to an id twice. -/
theorem nodup_ids_tree (hforest : registry.IsForest) (hroot : root ∈ registry.roots) : (registry.tree root).ids.Nodup :=
  (hforest.grown_tree hroot).nodup_ids hforest

/-- An id is registered exactly if it is in the tree of some root. -/
theorem mem_ids_iff (hforest : registry.IsForest) :
    id ∈ registry.ids ↔ ∃ root ∈ registry.roots, id ∈ (registry.tree root).ids := by
  constructor
  · intro hid
    obtain ⟨p, hp, rfl⟩ := mem_ids.1 hid
    exact hforest.exists_root hp
  · rintro ⟨root, hroot, hid⟩
    exact (hforest.grown_tree hroot).subset_ids hid

/-- The trees of all roots together hold the ids of the registry, each of them once. -/
theorem perm_ids (hforest : registry.IsForest) :
    ((registry.roots.map registry.tree).flatMap Tree.ids).Perm registry.ids := by
  refine (List.perm_ext_iff_of_nodup hforest.nodup_ids registry.nodup).2 fun id => ?_
  rw [List.flatMap_map, List.mem_flatMap]
  exact hforest.mem_ids_iff.symm

/-- Each primitive has its place in one of the trees, and this is its way up to a root. -/
theorem allPlaced (hforest : registry.IsForest) : registry.AllPlaced where
  once := by
    have hids : (registry.places.map (·.1)).map (·.id) = (registry.roots.map registry.tree).flatMap Tree.ids := by
      rw [places, List.map_map, List.map_flatMap, List.flatMap_map]
      exact List.flatMap_congr fun root _ => Tree.map_id_places [] (registry.tree root)
    have hplaced : ((registry.places.map (·.1)).map (·.id)).Nodup := hids ▸ hforest.nodup_ids
    refine (List.perm_ext_iff_of_nodup hplaced.of_map registry.nodup.of_map).2 fun p => ?_
    have hregistered : ∀ q ∈ registry.places.map (·.1), q ∈ registry.primitives := by
      intro q hq
      obtain ⟨⟨_, way⟩, hplace, rfl⟩ := List.mem_map.1 hq
      obtain ⟨root, hroot, hplace⟩ := List.mem_flatMap.1 hplace
      exact (hforest.grown_tree hroot).registered_of_mem_places hplace
    refine ⟨hregistered p, fun hp => ?_⟩
    have hid : p.id ∈ (registry.places.map (·.1)).map (·.id) := by
      rw [hids]
      exact hforest.perm_ids.mem_iff.2 (id_mem_ids hp)
    obtain ⟨q, hq, hsame⟩ := List.mem_map.1 hid
    exact eq_of_id_eq (hregistered q hq) hp hsame ▸ hq
  upwards := by
    intro p way hp
    obtain ⟨root, hroot, hp⟩ := List.mem_flatMap.1 hp
    have hlast := Tree.getLast?_of_mem_places hp
    rw [tree_top] at hlast
    exact ⟨(hforest.grown_tree hroot).lineage_of_mem_places hp, root, hroot, hlast⟩

/-- Two roots have nothing below them in common. -/
theorem root_unique (hforest : registry.IsForest) {first second : Primitive} (hfirst : first ∈ registry.roots)
    (hsecond : second ∈ registry.roots) (hinFirst : id ∈ (registry.tree first).ids)
    (hinSecond : id ∈ (registry.tree second).ids) : first = second := by
  have hregistered : ∀ root ∈ registry.roots, root ∈ registry.primitives := fun root hroot => (List.mem_filter.1 hroot).1
  have hup := (hforest.grown_tree hfirst).reflTransGen id hinFirst
  have hup' := (hforest.grown_tree hsecond).reflTransGen id hinSecond
  rw [tree_top] at hup hup'
  rcases Tree.Grown.total hforest hup hup' with hdown | hdown
  · exact eq_of_id_eq (hregistered _ hfirst) (hregistered _ hsecond) (hforest.eq_of_reflTransGen_root hsecond hdown)
  · exact eq_of_id_eq (hregistered _ hfirst) (hregistered _ hsecond) (hforest.eq_of_reflTransGen_root hfirst hdown).symm

end IsForest

end Registry

end Prebake
