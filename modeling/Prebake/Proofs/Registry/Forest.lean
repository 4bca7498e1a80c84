import Prebake.Proofs.Registry.Validity
import Prebake.Registry.Tree

/-!
# The trees of a forest

In a forest every primitive has one way up to its root, and the tree below a root is whole: `Grown` says of a tree that
the children of each primitive in it are those that it lists, and that the way up from it leads through the tree. Visited
children first, such a tree never comes to anything below what it has come to before. Going up towards an ancestor, step by
step, is a `Climb`; the scope of a primitive up to one of its ancestors is made of the layers that a climb goes through.
-/

namespace Prebake

open Relation

variable {registry : Registry} {p q root : Primitive} {above way : List Primitive} {id child : String}

namespace Registry

/-- Primitives of which each has the next one as its parent. -/
structure IsLineage (registry : Registry) (way : List Primitive) : Prop where
  registered : ∀ p ∈ way, p ∈ registry.primitives
  parents : way.IsChain fun child parent => registry.parentOf? child = some parent

/-- The parent of a primitive is the registered one with the id that it declares. -/
theorem parentOf?_eq_some_iff : registry.parentOf? p = some q ↔ q ∈ registry.primitives ∧ p.parent? = some q.id := by
  unfold parentOf?
  rw [Option.bind_eq_some_iff]
  constructor
  · rintro ⟨parent, hparent, hfound⟩
    obtain ⟨hq, rfl⟩ := find?_eq_some_iff.1 hfound
    exact ⟨hq, hparent⟩
  · rintro ⟨hq, hparent⟩
    exact ⟨q.id, hparent, find?_of_mem hq⟩

namespace IsForest

/-- A listed child is registered and declares the primitive that lists it. -/
theorem exists_child (h : registry.IsForest) (hlists : registry.Lists id child) :
    ∃ c ∈ registry.primitives, c.id = child ∧ c.parent? = some id := by
  obtain ⟨p, hp, rfl, hchild⟩ := hlists
  obtain ⟨c, hc, rfl⟩ := mem_ids.1 (h.children_registered p hp child hchild)
  exact ⟨c, hc, rfl, (h.lists_iff p hp c hc).1 hchild⟩

/-- No id is listed by two primitives. -/
theorem lists_unique (h : registry.IsForest) {a b : String} (ha : registry.Lists a child)
    (hb : registry.Lists b child) : a = b := by
  obtain ⟨c, hc, hcid, hparent⟩ := h.exists_child ha
  obtain ⟨d, hd, hdid, hparent'⟩ := h.exists_child hb
  rw [eq_of_id_eq hc hd (hcid.trans hdid.symm), hparent'] at hparent
  exact (Option.some.inj hparent).symm

/-- No id is listed as a child of a root. -/
theorem not_lists_root (h : registry.IsForest) (hroot : root ∈ registry.roots) : ¬registry.Lists id root.id := by
  intro hlists
  obtain ⟨hregistered, hnone⟩ := List.mem_filter.1 hroot
  obtain ⟨c, hc, hsame, hparent⟩ := h.exists_child hlists
  rw [eq_of_id_eq hc hregistered hsame] at hparent
  simp [Primitive.isRoot, hparent] at hnone

/-- A parent lists its child. -/
theorem lists_of_parentOf? (h : registry.IsForest) (hp : p ∈ registry.primitives)
    (hparent : registry.parentOf? p = some q) : registry.Lists q.id p.id := by
  obtain ⟨hq, hdeclared⟩ := parentOf?_eq_some_iff.1 hparent
  exact ⟨q, hq, rfl, (h.lists_iff q hq p hp).2 hdeclared⟩

/-! ## Children -/

/-- In a forest all children that a primitive lists are registered. -/
theorem map_id_childrenOf (h : registry.IsForest) (hp : p ∈ registry.primitives) :
    (registry.childrenOf p).map (·.id) = p.children := by
  have hregistered := h.children_registered p hp
  unfold childrenOf
  generalize p.children = children at hregistered
  induction children with
  | nil => rfl
  | cons child children ih =>
    obtain ⟨c, -, hid, hfound⟩ := exists_find?_of_mem_ids (hregistered child List.mem_cons_self)
    rw [List.filterMap_cons_some hfound, List.map_cons, hid,
      ih fun other hother => hregistered other (List.mem_cons_of_mem _ hother)]

/-- In a forest a primitive is the parent of those that it lists. -/
theorem of_mem_childrenOf (h : registry.IsForest) (hp : p ∈ registry.primitives) (hq : q ∈ registry.childrenOf p) :
    q ∈ registry.primitives ∧ registry.parentOf? q = some p := by
  obtain ⟨child, hchild, hfound⟩ := List.mem_filterMap.1 hq
  obtain ⟨hregistered, rfl⟩ := find?_eq_some_iff.1 hfound
  exact ⟨hregistered, parentOf?_eq_some_iff.2 ⟨hp, (h.lists_iff p hp q hregistered).1 hchild⟩⟩

end IsForest

/-! ## Climbs -/

/-- The next primitive on a climb to an ancestor: the parent, unless the climb has come to the ancestor. -/
def climb? (registry : Registry) (ancestor : String) (p : Primitive) : Option Primitive :=
  if p.id = ancestor then none else registry.parentOf? p

/-- A climb ends at the ancestor or where there is no parent. -/
theorem climb?_eq_none_iff {ancestor : String} :
    registry.climb? ancestor p = none ↔ p.id = ancestor ∨ registry.parentOf? p = none := by
  rw [climb?]
  split <;> simp_all

/-- A climb goes on to the parent where it has not come to the ancestor. -/
theorem climb?_eq_some_iff {ancestor : String} :
    registry.climb? ancestor p = some q ↔ p.id ≠ ancestor ∧ registry.parentOf? p = some q := by
  rw [climb?]
  split <;> simp_all

/-- A climb from a primitive towards an ancestor: it goes through the primitives above to the last one, after which there is
no next, be it that the ancestor has been reached or that nothing is above. -/
inductive Climb (registry : Registry) (ancestor : String) : Primitive → List Primitive → Primitive → Prop where
  | ends {p : Primitive} : registry.climb? ancestor p = none → Climb registry ancestor p [] p
  | up {p parent last : Primitive} {way : List Primitive} : registry.climb? ancestor p = some parent →
      Climb registry ancestor parent way last → Climb registry ancestor p (parent :: way) last

/-- A bounded way up makes one step of a climb at a time. -/
theorem wayUp_succ (registry : Registry) (ancestor : String) (steps : Nat) (p : Primitive) :
    registry.wayUp ancestor (steps + 1) p =
      p :: ((registry.climb? ancestor p).map (registry.wayUp ancestor steps)).getD [] := by
  rw [wayUp, climb?]
  split
  · rfl
  · cases registry.parentOf? p <;> rfl

/-- A bounded count of steps counts one step of a climb at a time, and one more where there is no ancestor. -/
theorem stepsUp_succ (registry : Registry) (ancestor : String) (steps : Nat) (p : Primitive) :
    registry.stepsUp ancestor (steps + 1) p = match registry.climb? ancestor p with
      | some parent => registry.stepsUp ancestor steps parent + 1
      | none => if p.id = ancestor then 0 else 1 := by
  rw [stepsUp, climb?]
  split
  · rfl
  · cases registry.parentOf? p <;> rfl

namespace Climb

variable {ancestor : String} {last : Primitive}

/-- Followed for enough steps, the way up goes where the climb goes. -/
theorem wayUp_eq {steps : Nat} (h : registry.Climb ancestor p way last) (hsteps : way.length < steps) :
    registry.wayUp ancestor steps p = p :: way := by
  induction h generalizing steps with
  | ends hends =>
    obtain ⟨steps, rfl⟩ := Nat.exists_eq_add_one_of_ne_zero (Nat.ne_of_gt hsteps)
    rw [wayUp_succ, hends]
    rfl
  | up hnext _ ih =>
    obtain ⟨steps, rfl⟩ := Nat.exists_eq_add_one_of_ne_zero (Nat.ne_of_gt (Nat.zero_lt_of_lt hsteps))
    rw [wayUp_succ, hnext, Option.map_some, Option.getD_some, ih (Nat.lt_of_succ_lt_succ hsteps)]

/-- Counted for enough steps, the way up has as many steps as there are primitives above, and one more if it leads out of the
tree. -/
theorem stepsUp_eq {steps : Nat} (h : registry.Climb ancestor p way last) (hsteps : way.length < steps) :
    registry.stepsUp ancestor steps p = way.length + if last.id = ancestor then 0 else 1 := by
  induction h generalizing steps with
  | ends hends =>
    obtain ⟨steps, rfl⟩ := Nat.exists_eq_add_one_of_ne_zero (Nat.ne_of_gt hsteps)
    rw [stepsUp_succ, hends, List.length_nil, Nat.zero_add]
  | up hnext _ ih =>
    obtain ⟨steps, rfl⟩ := Nat.exists_eq_add_one_of_ne_zero (Nat.ne_of_gt (Nat.zero_lt_of_lt hsteps))
    rw [stepsUp_succ, hnext]
    dsimp only
    rw [ih (Nat.lt_of_succ_lt_succ hsteps), List.length_cons, Nat.add_right_comm]

/-- The scope up to an ancestor has the layers of the climb to it, if the bound leaves room for them. -/
theorem scopeUpTo_eq (h : registry.Climb ancestor p way last) (hlength : way.length < registry.size) :
    registry.scopeUpTo p ancestor = (p :: way).map Primitive.layer := by
  rw [scopeUpTo, h.wayUp_eq hlength]

/-- The distance to an ancestor is the length of the climb to it, if the bound leaves room for that. -/
theorem distance_eq (h : registry.Climb ancestor p way last) (hp : p ∈ registry.primitives)
    (hlength : way.length < registry.size) :
    registry.distance p.id ancestor = way.length + if last.id = ancestor then 0 else 1 := by
  rw [distance, find?_of_mem hp]
  exact h.stepsUp_eq hlength

end Climb

/-! ## Ways up -/

namespace IsLineage

theorem tail (h : registry.IsLineage (p :: way)) : registry.IsLineage way :=
  ⟨fun q hq => h.registered q (List.mem_cons_of_mem _ hq), h.parents.tail⟩

theorem left_of_append {first second : List Primitive} (h : registry.IsLineage (first ++ second)) :
    registry.IsLineage first :=
  ⟨fun q hq => h.registered q (List.mem_append_left _ hq), h.parents.left_of_append⟩

/-- The ids on a way up are a way through the lists of children. -/
theorem isWay (h : registry.IsLineage way) (hforest : registry.IsForest) : registry.IsWay (way.map (·.id)) := by
  induction way with
  | nil => exact List.isChain_nil
  | cons p way ih =>
    cases way with
    | nil => exact List.isChain_singleton _
    | cons q way =>
      refine List.isChain_cons_cons.2 ⟨?_, ih h.tail⟩
      exact hforest.lists_of_parentOf? (h.registered p List.mem_cons_self) (List.isChain_cons_cons.1 h.parents).1

/-- A way up does not come to an id twice. -/
theorem nodup (h : registry.IsLineage way) (hforest : registry.IsForest) : (way.map (·.id)).Nodup := by
  have hchain : (way.map (·.id)).IsChain (TransGen fun child parent => registry.Lists parent child) :=
    (h.isWay hforest).imp fun _ _ => TransGen.single
  refine (List.isChain_iff_pairwise.1 hchain).imp ?_
  rintro a _ hsteps rfl
  exact hforest.acyclic a (transGen_swap.1 hsteps)

/-- A way up in a forest is no longer than the registry. -/
theorem length_le (h : registry.IsLineage way) (hforest : registry.IsForest) : way.length ≤ registry.size := by
  have hsub : (way.map (·.id)).Subperm registry.ids := List.subperm_of_subset (h.nodup hforest) fun id hid => by
    obtain ⟨p, hp, rfl⟩ := List.mem_map.1 hid
    exact id_mem_ids (h.registered p hp)
  simpa [ids, size] using hsub.length_le

/-- The end of a way without repetitions is not its beginning. -/
theorem id_ne_of_getLast? {ancestor : Primitive} (hnodup : ((p :: way).map (·.id)).Nodup)
    (hlast : way.getLast? = some ancestor) : p.id ≠ ancestor.id := by
  intro same
  have hin : ancestor.id ∈ way.map (·.id) := List.mem_map_of_mem (List.mem_of_getLast? hlast)
  rw [← same] at hin
  exact (List.nodup_cons.1 hnodup).1 hin

/-- The way up from a primitive to the end of its lineage is a climb. -/
theorem climb {ancestor : Primitive} (h : registry.IsLineage (p :: way)) (hnodup : ((p :: way).map (·.id)).Nodup)
    (hlast : (p :: way).getLast? = some ancestor) : registry.Climb ancestor.id p way ancestor := by
  induction way generalizing p with
  | nil =>
    obtain rfl : p = ancestor := by simpa using hlast
    exact Climb.ends (climb?_eq_none_iff.2 (Or.inl rfl))
  | cons q way ih =>
    have hlast' : (q :: way).getLast? = some ancestor := by simpa using hlast
    have hparent := (List.isChain_cons_cons.1 h.parents).1
    have hnext := climb?_eq_some_iff.2 ⟨id_ne_of_getLast? hnodup hlast', hparent⟩
    exact Climb.up hnext (ih h.tail (List.nodup_cons.1 hnodup).2 hlast')

/-- The distance of a primitive from an ancestor is the number of primitives above it, up to the ancestor. -/
theorem distance_eq {ancestor : Primitive} (h : registry.IsLineage (p :: way)) (hforest : registry.IsForest)
    (hlast : (p :: way).getLast? = some ancestor) : registry.distance p.id ancestor.id = way.length := by
  have hlength := h.length_le hforest
  rw [List.length_cons] at hlength
  rw [(h.climb (h.nodup hforest) hlast).distance_eq (h.registered p List.mem_cons_self) hlength, if_pos rfl, Nat.add_zero]

/-- The scope of a primitive up to an ancestor is made of the layers on the way. -/
theorem scopeUpTo_eq {ancestor : Primitive} {rest : List Primitive}
    (h : registry.IsLineage (p :: (way ++ ancestor :: rest))) (hforest : registry.IsForest) :
    registry.scopeUpTo p ancestor.id = (p :: (way ++ [ancestor])).map Primitive.layer := by
  have hsplit : p :: (way ++ ancestor :: rest) = p :: (way ++ [ancestor]) ++ rest := by simp
  rw [hsplit] at h
  have hpart := h.left_of_append
  have hlength := hpart.length_le hforest
  rw [List.length_cons] at hlength
  have hlast : (p :: (way ++ [ancestor])).getLast? = some ancestor := by
    rw [← List.cons_append, List.getLast?_concat]
  exact (hpart.climb (hpart.nodup hforest) hlast).scopeUpTo_eq hlength

end IsLineage

end Registry

/-! ## Whole trees -/

namespace Tree

theorem idsBelow_eq (trees : List Tree) : idsBelow trees = trees.flatMap ids := by
  induction trees with
  | nil => rfl
  | cons tree trees ih => rw [idsBelow, ih, List.flatMap_cons]

/-- The ids in a tree are those below its top, followed by that of the top. -/
theorem ids_node (p : Primitive) (children : List Tree) : (node p children).ids = children.flatMap ids ++ [p.id] := by
  rw [ids, idsBelow_eq]

theorem top_mem_ids (tree : Tree) : tree.top.id ∈ tree.ids := by
  cases tree with
  | node p children => simp [ids_node, top]

/-- A tree is whole: every primitive in it has below it the trees of the children that it lists, and its way up leads
through the tree and on through `above`. -/
inductive Grown (registry : Registry) : List Primitive → Tree → Prop where
  | node {p : Primitive} {above : List Primitive} {children : List Tree} :
    registry.IsLineage (p :: above) → children.map (·.top.id) = p.children →
      (∀ tree ∈ children, Grown registry (p :: above) tree) → Grown registry above (.node p children)

namespace Grown

variable {tree : Tree} {children : List Tree}

/-- Whatever is in a tree is reached from its top by steps to children. -/
theorem reflTransGen (h : Grown registry above tree) :
    ∀ id ∈ tree.ids, ReflTransGen registry.Lists tree.top.id id := by
  induction h with
  | @node p above children hlineage hids _ ih =>
    intro id hid
    rw [ids_node, List.mem_append, List.mem_flatMap, List.mem_singleton] at hid
    rcases hid with ⟨tree, htree, hid⟩ | rfl
    · have hlists : registry.Lists p.id tree.top.id :=
        ⟨p, hlineage.registered p List.mem_cons_self, rfl, hids ▸ List.mem_map_of_mem htree⟩
      exact ReflTransGen.head hlists (ih tree htree id hid)
    · exact ReflTransGen.refl

/-- Two primitives that a third one is reached from are above one another. -/
theorem total {a b : String} (hforest : registry.IsForest) (ha : ReflTransGen registry.Lists a id)
    (hb : ReflTransGen registry.Lists b id) :
    ReflTransGen registry.Lists a b ∨ ReflTransGen registry.Lists b a := by
  have hunique : Relator.RightUnique fun child parent => registry.Lists parent child :=
    fun _ _ _ => hforest.lists_unique
  have hup := ReflTransGen.total_of_right_unique hunique (reflTransGen_swap.2 ha) (reflTransGen_swap.2 hb)
  exact hup.symm.imp reflTransGen_swap.1 reflTransGen_swap.1

/-- Two children of one primitive have nothing below them in common. -/
theorem eq_of_lists {a b : String} (hforest : registry.IsForest) (ha : registry.Lists id a)
    (hb : registry.Lists id b) (hab : ReflTransGen registry.Lists a b) : a = b := by
  rcases ReflTransGen.cases_tail_iff _ _ _ |>.1 hab with rfl | ⟨c, hac, hcb⟩
  · rfl
  · rw [hforest.lists_unique hcb hb] at hac
    exact absurd (TransGen.head' ha hac) (hforest.acyclic id)

/-- The ids of several trees of which none is above another one, in the order of a visit: what comes later is not below what
came earlier. -/
theorem pairwise_flatMap_ids {trees : List Tree} (hforest : registry.IsForest)
    (hreached : ∀ tree ∈ trees, ∀ id ∈ tree.ids, ReflTransGen registry.Lists tree.top.id id)
    (hapart : trees.Pairwise fun a b =>
      ¬ReflTransGen registry.Lists a.top.id b.top.id ∧ ¬ReflTransGen registry.Lists b.top.id a.top.id)
    (hown : ∀ tree ∈ trees, tree.ids.Pairwise fun earlier later => ¬ReflTransGen registry.Lists earlier later) :
    (trees.flatMap ids).Pairwise fun earlier later => ¬ReflTransGen registry.Lists earlier later := by
  refine List.pairwise_flatMap.2 ⟨hown, hapart.imp_of_mem fun {a b} ha hb hab => ?_⟩
  intro earlier hearlier later hlater hbelow
  rcases total hforest ((hreached a ha earlier hearlier).trans hbelow) (hreached b hb later hlater) with h | h
  · exact hab.1 h
  · exact hab.2 h

/-- In the order of a visit, what comes later in a tree is not below what came earlier. -/
theorem pairwise_ids (h : Grown registry above tree) (hforest : registry.IsForest) :
    tree.ids.Pairwise fun earlier later => ¬ReflTransGen registry.Lists earlier later := by
  induction h with
  | @node p above children hlineage hids hbelow ih =>
    have hp := hlineage.registered p List.mem_cons_self
    have hlists : ∀ tree ∈ children, registry.Lists p.id tree.top.id := fun tree htree =>
      ⟨p, hp, rfl, hids ▸ List.mem_map_of_mem htree⟩
    have htops : (children.map (·.top.id)).Nodup := by
      rw [hids]
      exact (List.nodup_flatMap.1 hforest.listed_once).1 p hp
    have hapart : children.Pairwise fun a b =>
        ¬ReflTransGen registry.Lists a.top.id b.top.id ∧ ¬ReflTransGen registry.Lists b.top.id a.top.id := by
      refine (List.pairwise_map.1 htops).imp_of_mem fun {a b} ha hb hne => ⟨fun hab => ?_, fun hba => ?_⟩
      · exact hne (eq_of_lists hforest (hlists a ha) (hlists b hb) hab)
      · exact hne (eq_of_lists hforest (hlists b hb) (hlists a ha) hba).symm
    have hreached := fun tree htree => (hbelow tree htree).reflTransGen
    rw [ids_node, List.pairwise_append]
    refine ⟨pairwise_flatMap_ids hforest hreached hapart ih, List.pairwise_singleton _ _, ?_⟩
    intro id hid last hlast hup
    obtain ⟨tree, htree, hid⟩ := List.mem_flatMap.1 hid
    rw [List.mem_singleton.1 hlast] at hup
    exact hforest.acyclic p.id (TransGen.head' (hlists tree htree) ((hreached tree htree id hid).trans hup))

/-- In the order of a visit, what comes later below the top of a tree is not below what came earlier, and the top is not among
it. -/
theorem pairwise_below {children : List Tree} (h : Grown registry above (.node p children)) (hforest : registry.IsForest) :
    ((children.flatMap ids).Pairwise fun earlier later => ¬ReflTransGen registry.Lists earlier later) ∧
      p.id ∉ children.flatMap ids := by
  have horder := h.pairwise_ids hforest
  rw [ids_node, List.pairwise_append] at horder
  obtain ⟨horder, -, hlast⟩ := horder
  refine ⟨horder, fun hin => ?_⟩
  exact hlast p.id hin p.id (List.mem_singleton_self _) ReflTransGen.refl

/-- No id stands twice in a tree. -/
theorem nodup_ids (h : Grown registry above tree) (hforest : registry.IsForest) : tree.ids.Nodup := by
  refine (h.pairwise_ids hforest).imp ?_
  rintro id _ hbelow rfl
  exact hbelow ReflTransGen.refl

/-- No id stands twice below the top of a tree. -/
theorem nodup_below {children : List Tree} (h : Grown registry above (.node p children)) (hforest : registry.IsForest) :
    (children.flatMap ids).Nodup := by
  have hnodup := h.nodup_ids hforest
  rw [ids_node] at hnodup
  exact hnodup.of_append_left

end Grown

end Tree

namespace Registry

/-- The tree below a primitive is whole if it may be deeper than the way up from the primitive leaves room for. -/
theorem IsForest.grown_treeBelow (hforest : registry.IsForest) {depth : Nat}
    (hlineage : registry.IsLineage (p :: above)) (hdepth : registry.size ≤ depth + above.length) :
    Tree.Grown registry above (registry.treeBelow depth p) := by
  induction depth generalizing p above with
  | zero =>
    have := hlineage.length_le hforest
    simp only [List.length_cons] at this
    omega
  | succ depth ih =>
    have hp := hlineage.registered p List.mem_cons_self
    have htop : ∀ q, (registry.treeBelow depth q).top = q := fun q => by cases depth <;> rfl
    refine Tree.Grown.node hlineage ?_ ?_
    · rw [← hforest.map_id_childrenOf hp, List.map_map]
      exact List.map_congr_left fun q _ => by simp [htop]
    · intro tree htree
      obtain ⟨q, hq, rfl⟩ := List.mem_map.1 htree
      obtain ⟨hregistered, hparent⟩ := hforest.of_mem_childrenOf hp hq
      refine ih ⟨?_, List.isChain_cons_cons.2 ⟨hparent, hlineage.parents⟩⟩ (by simp only [List.length_cons]; omega)
      intro r hr
      rcases List.mem_cons.1 hr with rfl | hr
      · exact hregistered
      · exact hlineage.registered r hr

/-- The tree below a root is whole. -/
theorem IsForest.grown_tree (hforest : registry.IsForest) (hroot : root ∈ registry.roots) :
    Tree.Grown registry [] (registry.tree root) := by
  refine hforest.grown_treeBelow ⟨fun p hp => ?_, List.isChain_singleton _⟩ (Nat.le_refl _)
  rw [List.mem_singleton.1 hp]
  exact (List.mem_filter.1 hroot).1

end Registry

end Prebake
