import Prebake.Proofs.Registry.Forest

/-!
# Places in a tree

The place of a primitive in a tree is told by the primitives above it. `Tree.places` lists the primitives of a tree with
their places in the order of a visit, children before their parents. In a whole tree the place of a primitive is its way
up, the children of a primitive have their places right below it, and no child comes after its parent.
-/

namespace Prebake

namespace Tree

mutual

/-- The primitives in a tree, each with those above it from the nearest one outwards; `above` are those above the tree. -/
def places (above : List Primitive) : Tree → List (Primitive × List Primitive)
  | node p children => placesBelow (p :: above) children ++ [(p, above)]

/-- The primitives in some trees, in the same form. -/
def placesBelow (above : List Primitive) : List Tree → List (Primitive × List Primitive)
  | [] => []
  | tree :: trees => places above tree ++ placesBelow above trees

end

theorem placesBelow_eq (above : List Primitive) (trees : List Tree) :
    placesBelow above trees = trees.flatMap (places above) := by
  induction trees with
  | nil => rfl
  | cons tree trees ih => rw [placesBelow, ih, List.flatMap_cons]

/-- The places in a tree are those below its top, followed by that of the top. -/
theorem places_node (above : List Primitive) (p : Primitive) (children : List Tree) :
    (node p children).places above = children.flatMap (places (p :: above)) ++ [(p, above)] := by
  rw [places, placesBelow_eq]

/-- What is above a tree is above every primitive in it. -/
theorem places_append (above outer : List Primitive) : ∀ tree : Tree,
    tree.places (above ++ outer) = (tree.places above).map fun (p, way) => (p, way ++ outer)
  | node p children => by
    have hchildren : ∀ tree ∈ children, tree.places (p :: (above ++ outer)) =
        (tree.places (p :: above)).map fun (p, way) => (p, way ++ outer) :=
      fun tree _ => places_append (p :: above) outer tree
    rw [places_node, places_node, List.map_append, List.map_flatMap]
    congr 1
    exact List.flatMap_congr hchildren

/-- What stands above a tree stands above all places in it. -/
theorem mem_places_iff {tree : Tree} {p : Primitive} {outer way : List Primitive} :
    (p, way) ∈ tree.places outer ↔ ∃ inner, (p, inner) ∈ tree.places [] ∧ inner ++ outer = way := by
  have hsplit := places_append [] outer tree
  rw [List.nil_append] at hsplit
  rw [hsplit, List.mem_map]
  constructor
  · rintro ⟨⟨q, inner⟩, hq, heq⟩
    cases heq
    exact ⟨inner, hq, rfl⟩
  · rintro ⟨inner, hp, rfl⟩
    exact ⟨(p, inner), hp, rfl⟩

/-- The ids of a tree are those of its places, in their order. -/
theorem map_id_places (above : List Primitive) : ∀ tree : Tree, (tree.places above).map (·.1.id) = tree.ids
  | node p children => by
    have hchildren : ∀ tree ∈ children, (tree.places (p :: above)).map (·.1.id) = tree.ids :=
      fun tree _ => map_id_places (p :: above) tree
    rw [places_node, ids_node, List.map_append, List.map_flatMap, List.flatMap_congr hchildren]
    rfl

theorem mem_ids_of_mem_places {tree : Tree} {p : Primitive} {above way : List Primitive}
    (h : (p, way) ∈ tree.places above) : p.id ∈ tree.ids :=
  map_id_places above tree ▸ List.mem_map_of_mem h

/-- Whatever is in a tree has a place there. -/
theorem exists_mem_places {tree : Tree} {id : String} (above : List Primitive) (h : id ∈ tree.ids) :
    ∃ p way, (p, way) ∈ tree.places above ∧ p.id = id := by
  rw [← map_id_places above tree, List.mem_map] at h
  obtain ⟨⟨p, way⟩, hmem, hid⟩ := h
  exact ⟨p, way, hmem, hid⟩

/-- The top of a tree has its place below what stands above the tree. -/
theorem top_mem_places (above : List Primitive) (tree : Tree) : (tree.top, above) ∈ tree.places above := by
  cases tree with
  | node p children => simp [places_node, top]

/-- Between a primitive and what is above its tree stand primitives of the tree, and the last of them is its top. -/
theorem exists_inner : ∀ (tree : Tree) {p : Primitive} {above way : List Primitive}, (p, way) ∈ tree.places above →
    ∃ inner, way = inner ++ above ∧ (p :: inner).getLast? = some tree.top ∧ ∀ q ∈ inner, q.id ∈ tree.ids
  | node top children, p, above, way, hp => by
    rw [places_node, List.mem_append, List.mem_flatMap, List.mem_singleton] at hp
    rcases hp with ⟨tree, htree, hp⟩ | hp
    · obtain ⟨inner, rfl, -, hids⟩ := exists_inner tree hp
      refine ⟨inner ++ [top], by simp, by rw [← List.cons_append, List.getLast?_concat, Tree.top], fun q hq => ?_⟩
      rw [ids_node, List.mem_append, List.mem_flatMap, List.mem_singleton]
      rcases List.mem_append.1 hq with hq | hq
      · exact Or.inl ⟨tree, htree, hids q hq⟩
      · exact Or.inr (congrArg Primitive.id (List.mem_singleton.1 hq))
    · cases hp
      exact ⟨[], rfl, rfl, fun _ hq => absurd hq List.not_mem_nil⟩

/-- The way up from a primitive in a tree ends at the top of the tree. -/
theorem getLast?_of_mem_places {tree : Tree} {p : Primitive} {way : List Primitive} (hp : (p, way) ∈ tree.places []) :
    (p :: way).getLast? = some tree.top := by
  obtain ⟨inner, rfl, hlast, -⟩ := tree.exists_inner hp
  rwa [List.append_nil]

/-- Whatever is above a primitive in a tree is in the tree. -/
theorem mem_ids_of_mem_way {tree : Tree} {p q : Primitive} {way : List Primitive} (hp : (p, way) ∈ tree.places [])
    (hq : q ∈ way) : q.id ∈ tree.ids := by
  obtain ⟨inner, rfl, -, hids⟩ := tree.exists_inner hp
  rw [List.append_nil] at hq
  exact hids q hq

/-- What stands right above a primitive has its own place in the tree, unless it is above the tree. -/
theorem mem_places_above : ∀ (tree : Tree) {p q : Primitive} {above way : List Primitive},
    (p, q :: way) ∈ tree.places above → above = q :: way ∨ (q, way) ∈ tree.places above
  | node top children, p, q, above, way, hp => by
    rw [places_node, List.mem_append, List.mem_flatMap, List.mem_singleton] at hp ⊢
    rcases hp with ⟨tree, htree, hp⟩ | hp
    · rcases mem_places_above tree hp with hsame | hq
      · cases hsame
        exact Or.inr (Or.inr rfl)
      · exact Or.inr (Or.inl ⟨tree, htree, hq⟩)
    · cases hp
      exact Or.inl rfl

/-- What stands above a place has a place too. -/
theorem mem_places_of_cons {tree : Tree} {p q : Primitive} {way : List Primitive}
    (hp : (p, q :: way) ∈ tree.places []) : (q, way) ∈ tree.places [] :=
  (tree.mem_places_above hp).resolve_left nofun

namespace Grown

variable {registry : Registry} {tree : Tree} {p : Primitive} {above way : List Primitive}

/-- The place of a primitive in a whole tree is its way up. -/
theorem lineage_of_mem_places (h : Grown registry above tree) (hp : (p, way) ∈ tree.places above) :
    registry.IsLineage (p :: way) := by
  induction h with
  | node hlineage _ _ ih =>
    rw [places_node, List.mem_append, List.mem_flatMap, List.mem_singleton] at hp
    rcases hp with ⟨tree, htree, hp⟩ | hp
    · exact ih tree htree hp
    · cases hp
      exact hlineage

variable {base : List Primitive}

/-- In a whole tree only registered primitives have a place. -/
theorem registered_of_mem_places (h : Grown registry above tree) (hp : (p, way) ∈ tree.places base) :
    p ∈ registry.primitives := by
  induction h generalizing base with
  | node hlineage _ _ ih =>
    rw [places_node, List.mem_append, List.mem_flatMap, List.mem_singleton] at hp
    rcases hp with ⟨tree, htree, hp⟩ | hp
    · exact ih tree htree hp
    · cases hp
      exact hlineage.registered _ List.mem_cons_self

/-- The children of a primitive in a whole tree have their places right below it. -/
theorem exists_child_place {child : String} (h : Grown registry above tree) (hp : (p, way) ∈ tree.places base)
    (hchild : child ∈ p.children) : ∃ c, (c, p :: way) ∈ tree.places base ∧ c.id = child := by
  induction h generalizing base with
  | node _ hids _ ih =>
    simp only [places_node, List.mem_append, List.mem_flatMap, List.mem_singleton] at hp ⊢
    rcases hp with ⟨tree, htree, hp⟩ | hp
    · obtain ⟨c, hc, hid⟩ := ih tree htree hp
      exact ⟨c, Or.inl ⟨tree, htree, hc⟩, hid⟩
    · cases hp
      rw [← hids, List.mem_map] at hchild
      obtain ⟨tree, htree, hid⟩ := hchild
      exact ⟨tree.top, Or.inl ⟨tree, htree, top_mem_places _ tree⟩, hid⟩

/-- A whole tree holds the children of all primitives in it. -/
theorem child_mem_ids {child : String} (h : Grown registry above tree) (hp : (p, way) ∈ tree.places base)
    (hchild : child ∈ p.children) : child ∈ tree.ids := by
  obtain ⟨c, hc, rfl⟩ := h.exists_child_place hp hchild
  exact mem_ids_of_mem_places hc

/-- At each place of a tree another tree has its top, and all of this one is in the whole tree and below that place. -/
theorem exists_subtree (h : Grown registry above tree) (hp : (p, way) ∈ tree.places above) :
    ∃ subtree, Grown registry way subtree ∧ subtree.top = p ∧ ∀ q below, (q, below) ∈ subtree.places way →
      (q, below) ∈ tree.places above ∧ p.id ∈ (q :: below).map (·.id) := by
  induction h with
  | @node top above children hlineage hids hchildren ih =>
    simp only [places_node, List.mem_append, List.mem_flatMap, List.mem_singleton] at hp
    rcases hp with ⟨tree, htree, hp⟩ | hp
    · obtain ⟨subtree, hgrown, htop, hbelow⟩ := ih tree htree hp
      refine ⟨subtree, hgrown, htop, fun q below hq => ?_⟩
      obtain ⟨hin, hmem⟩ := hbelow q below hq
      rw [places_node]
      exact ⟨List.mem_append_left _ (List.mem_flatMap.2 ⟨tree, htree, hin⟩), hmem⟩
    · cases hp
      refine ⟨Tree.node p children, .node hlineage hids hchildren, rfl, fun q below hq => ⟨hq, ?_⟩⟩
      rw [places_node, List.mem_append, List.mem_flatMap, List.mem_singleton] at hq
      rcases hq with ⟨tree, -, hq⟩ | hq
      · obtain ⟨inner, -, rfl⟩ := mem_places_iff.1 hq
        simp
      · cases hq
        exact List.mem_cons_self

/-- The layers on the way from a primitive up to the top of a tree and on to the one above. -/
theorem scopeUpTo_of_mem_places {ancestor : Primitive} (hforest : registry.IsForest)
    (h : Grown registry (ancestor :: above) tree) (hp : (p, way) ∈ tree.places []) :
    registry.scopeUpTo p ancestor.id = (p :: way).map Primitive.layer ++ [ancestor.layer] := by
  have hplace : (p, way ++ ancestor :: above) ∈ tree.places (ancestor :: above) := mem_places_iff.2 ⟨way, hp, rfl⟩
  rw [Registry.IsLineage.scopeUpTo_eq (h.lineage_of_mem_places hplace) hforest]
  simp

/-- A primitive is not further from the top of a whole tree than the tree has primitives. -/
theorem length_way_lt (hforest : registry.IsForest) (h : Grown registry [] tree) (hp : (p, way) ∈ tree.places []) :
    way.length < tree.ids.length := by
  have hnodup := (h.lineage_of_mem_places hp).nodup hforest
  have hsub : ((p :: way).map (·.id)).Subperm tree.ids := by
    refine List.subperm_of_subset hnodup fun id hid => ?_
    obtain ⟨q, hq, rfl⟩ := List.mem_map.1 hid
    rcases List.mem_cons.1 hq with rfl | hq
    · exact mem_ids_of_mem_places hp
    · exact mem_ids_of_mem_way hp hq
  have hlength := hsub.length_le
  rwa [List.length_map, List.length_cons] at hlength

end Grown

end Tree

/-- The primitives in the trees of a registry, each with those above it from its parent up to its root. -/
def Registry.places (registry : Registry) : List (Primitive × List Primitive) :=
  registry.roots.flatMap fun root => (registry.tree root).places []

end Prebake
