import Prebake.Proofs.Registry.Relabelling
import Prebake.Proofs.Statistics

/-!
# Resolution under other ids

What becomes of a primitive depends on its tree and on nothing else: not on the ids, as long as they are told apart, nor on the
order of the registry or on what other trees it holds. A visit leaves each primitive settled, and what it is settled on follows
from the scope and from what its children are settled on (`Settled.mirrors`); so two visits of the same tree under different
ids end in the same way (`HoldsTree.mirrors`), and what a resolution tells is put together from these (`resolve_relabel`).
-/

namespace Prebake

variable {r : String → String} {ids : Set String}

/-! ## Settled primitives -/

namespace Progress

variable {progress mirror : Progress} {p q : Primitive} {scope around : Scope} {id : String}

/-- Under another id the same is known of a primitive: how often it was attempted, and the outcome. -/
structure Mirrors (mirror progress : Progress) (r : String → String) (id : String) : Prop where
  attempt : mirror.attempts.find? (r id) = (progress.attempts.find? id).map (Attempt.relabel r)
  evaluations : mirror.evaluationsOf (r id) = progress.evaluationsOf id

namespace Mirrors

/-- Where one progress mirrors another, the same markup is known. -/
theorem rendered? (h : mirror.Mirrors progress r id) : mirror.rendered? (r id) = progress.rendered? id := by
  unfold Progress.rendered?
  rw [h.attempt]
  rcases progress.attempts.find? id with _ | (_ | _) <;> rfl

theorem renderedWithin? (h : mirror.Mirrors progress r id) (reach : Nat) :
    mirror.renderedWithin? reach (r id) = progress.renderedWithin? reach id := by
  rw [Progress.renderedWithin?, Progress.renderedWithin?, h.evaluations, h.rendered?]

end Mirrors

/-- A primitive with the same trials elsewhere is not attempted more often. -/
theorem Settled.evaluationsOf_le (h : progress.Settled p scope) (hmirror : mirror.Settled q around)
    (hlength : around.length = scope.length)
    (htrials : ∀ reach, (mirror.trial q around reach).isOpen = (progress.trial p scope reach).isOpen) :
    mirror.evaluationsOf q.id ≤ progress.evaluationsOf p.id := by
  by_contra hmore
  have hopen := hmirror.earlier _ h.evaluated (by omega)
  rw [htrials] at hopen
  have hwhole := h.exhausted hopen
  have hwithin := hmirror.within
  omega

/-- What a primitive is settled on follows from its scope and from what its children are settled on. -/
theorem Settled.mirrors (h : progress.Settled p scope) (hmirror : mirror.Settled (p.relabel r) (scope.relabel r))
    (hinj : ids.InjOn r) (hscope : ∀ layer ∈ scope, layer.owner ∈ ids)
    (hchildren : ∀ child ∈ p.children, mirror.Mirrors progress r child) : mirror.Mirrors progress r p.id := by
  have hlength : (scope.relabel r).length = scope.length := List.length_map ..
  have htrial : ∀ reach, mirror.trial (p.relabel r) (scope.relabel r) reach =
      (progress.trial p scope reach).relabel r := by
    intro reach
    have hmarkup : (p.relabel r).children.map (mirror.renderedWithin? (reach + 1)) =
        p.children.map (progress.renderedWithin? (reach + 1)) := by
      show (p.children.map r).map _ = _
      rw [List.map_map]
      exact List.map_congr_left fun child hchild => (hchildren child hchild).renderedWithin? _
    rw [trial, trial, hmarkup, Scope.take_relabel]
    exact p.attempt_relabel hinj (fun layer hlayer => hscope layer (List.mem_of_mem_take hlayer)) _
  have htrials : ∀ reach, (mirror.trial (p.relabel r) (scope.relabel r) reach).isOpen =
      (progress.trial p scope reach).isOpen := fun reach => by rw [htrial, Attempt.isOpen_relabel]
  have hevaluations : mirror.evaluationsOf (r p.id) = progress.evaluationsOf p.id :=
    Nat.le_antisymm (h.evaluationsOf_le hmirror hlength htrials)
      (hmirror.evaluationsOf_le h hlength.symm fun reach => (htrials reach).symm)
  refine ⟨?_, hevaluations⟩
  have hattempt := hmirror.attempt
  rw [htrial] at hattempt
  rw [h.attempt, Option.map_some, ← hevaluations]
  exact hattempt

end Progress

/-- Two visits of the same tree under different ids settle its primitives on the same. -/
theorem Tree.Grown.mirrors {registry : Registry} {progress mirror : Progress} {above : List Primitive} {tree : Tree}
    (h : Grown registry above tree) (hinj : ids.InjOn r) (habove : ∀ p ∈ above, p.id ∈ ids) (hids : ∀ id ∈ tree.ids, id ∈ ids)
    (hsettled : ∀ p way, (p, way) ∈ tree.places above → progress.Settled p ((p :: way).map Primitive.layer))
    (hmirror : ∀ p way, (p, way) ∈ tree.places above →
      mirror.Settled (p.relabel r) (Scope.relabel r ((p :: way).map Primitive.layer))) :
    ∀ id ∈ tree.ids, mirror.Mirrors progress r id := by
  induction h with
  | @node p above children _ hlisted _ ih =>
    simp only [places_node, ids_node, List.mem_append, List.mem_flatMap, List.mem_singleton] at hids hsettled hmirror ⊢
    have hway : ∀ q ∈ p :: above, q.id ∈ ids := List.forall_mem_cons.2 ⟨hids p.id (Or.inr rfl), habove⟩
    have hbelow : ∀ tree ∈ children, ∀ id ∈ tree.ids, mirror.Mirrors progress r id := fun tree htree =>
      ih tree htree hway (fun id hid => hids id (Or.inl ⟨tree, htree, hid⟩))
        (fun q way hq => hsettled q way (Or.inl ⟨tree, htree, hq⟩)) fun q way hq => hmirror q way (Or.inl ⟨tree, htree, hq⟩)
    rintro id (⟨tree, htree, hid⟩ | rfl)
    · exact hbelow tree htree id hid
    · refine (hsettled p above (Or.inr rfl)).mirrors (hmirror p above (Or.inr rfl)) hinj ?_ ?_
      · exact List.forall_mem_map.2 fun q hq => hway q hq
      · rw [← hlisted]
        exact List.forall_mem_map.2 fun tree htree => hbelow tree htree _ (top_mem_ids tree)

/-! ## One tree -/

/-- The state with another id for the child that may be to blame. -/
def State.relabel (r : String → String) : State → State
  | resolved html => resolved html
  | deferred reason => deferred (reason.relabel r)

/-- The state after a relabelled attempt is the relabelled state. -/
theorem Attempt.state_relabel (outcome : Attempt) : (outcome.relabel r).state = outcome.state.relabel r := by
  cases outcome <;> rfl

theorem State.isResolved_relabel (state : State) : (state.relabel r).isResolved = state.isResolved := by
  cases state <;> rfl

/-- The tree under another id for its root. -/
def ResolvedTree.relabel (r : String → String) (tree : ResolvedTree) : ResolvedTree := { tree with root := r tree.root }

theorem Primitive.relabel_id (p : Primitive) : p.relabel (fun id => id) = p := by
  rw [relabel, Option.map_id', List.map_id']

theorem State.relabel_id (state : State) : state.relabel (fun id => id) = state := by
  rcases state with html | (_ | _) <;> rfl

theorem Stats.add_right_comm (a b c : Stats) : (a.add b).add c = (a.add c).add b := by
  ext
  · exact Nat.add_right_comm ..
  · exact Nat.add_right_comm ..
  · exact Nat.add_right_comm ..
  · exact Nat.add_right_comm ..
  · exact Nat.add_right_comm ..
  · exact Nat.max_right_comm ..
  · exact Nat.add_right_comm ..

namespace Resolution

/-- What one resolution tells of the primitives of a registry, another one tells of them under other ids, and it counts the
same. -/
structure Relabels (renamed resolution : Resolution) (r : String → String) (registry other : Registry) : Prop where
  states : ∀ id ∈ registry.ids, renamed.state? (r id) = (resolution.state? id).map (State.relabel r)
  evaluations : ∀ id ∈ registry.ids, renamed.evaluationsOf (r id) = resolution.evaluationsOf id
  /-- Nothing else is told of. -/
  covered : ∀ name, name ∈ renamed.states.names ↔ ∃ id ∈ registry.ids, r id = name
  stats : renamed.stats = resolution.stats
  /-- The trees have the same markup and the same slots. -/
  trees : renamed.trees.Perm (resolution.trees.map (ResolvedTree.relabel r))
  /-- They come in the order of their roots. -/
  order : renamed.trees.map (·.root) = other.roots.map (·.id)

/-- Two resolutions tell the same of a tree. -/
structure AgreesOn (rest resolution : Resolution) (tree : Tree) : Prop where
  states : ∀ id ∈ tree.ids, rest.state? id = resolution.state? id
  evaluations : ∀ id ∈ tree.ids, rest.evaluationsOf id = resolution.evaluationsOf id
  tree : rest.tree? tree.top.id = resolution.tree? tree.top.id

end Resolution

namespace Registry

variable {registry other : Registry} {root : Primitive} {id : String}

/-- There is one tree with the id of a root, and its markup is what the visit found. -/
theorem tree?_addTrees (registry : Registry) (hroot : root ∈ registry.roots) :
    (registry.addTrees Resolution.empty registry.roots).tree? root.id =
      some ⟨root.id, (registry.visitTree root).2.rendered? root.id⟩ := by
  have hfound : registry.roots.find? (·.id == root.id) = some root := by
    have hnodup : (registry.roots.map (·.id)).Nodup := registry.nodup.sublist (List.filter_sublist.map _)
    cases hfound : registry.roots.find? (·.id == root.id) with
    | none => exact absurd (List.find?_eq_none.1 hfound root hroot) (by simp)
    | some found =>
      have hsame : found.id = root.id := by simpa using List.find?_some hfound
      rw [List.inj_on_of_nodup_map hnodup (List.mem_of_find?_eq_some hfound) hroot hsame]
  rw [Resolution.tree?, trees_addTrees, Resolution.empty, List.nil_append, List.find?_map]
  exact congrArg (Option.map _) hfound

/-- A tree counts as one. -/
theorem trees_resolveTree (registry : Registry) (root : Primitive) : (registry.resolveTree root).1.stats.trees = 1 := rfl

/-- The primitives counted in a tree are those in it. -/
theorem IsForest.nodes_resolveTree (hforest : registry.IsForest) (hroot : root ∈ registry.roots) :
    (registry.resolveTree root).1.stats.nodes = (registry.tree root).ids.length :=
  hforest.size_attempts hroot

namespace HoldsTree

/-- A registry that holds the primitives of a tree holds it under its own ids. -/
theorem of_mem (hroot : root ∈ registry.roots)
    (hheld : ∀ p ∈ registry.primitives, p.id ∈ (registry.tree root).ids → p ∈ other.primitives) :
    other.HoldsTree registry (fun id => id) root where
  isRoot := hroot
  primitives p hp hid := p.relabel_id.symm ▸ hheld p hp hid
  injective := Set.injOn_id _

variable (h : other.HoldsTree registry r root) (hforest : registry.IsForest) (hother : other.IsForest)

include h hforest hother

/-- The visits of the same tree in two registries end in the same way. -/
theorem mirrors (hid : id ∈ (registry.tree root).ids) :
    (other.visitTree (root.relabel r)).2.Mirrors (registry.visitTree root).2 r id := by
  refine (hforest.grown_tree h.isRoot).mirrors h.injective (List.forall_mem_nil _) (fun _ hid => hid)
    (hforest.visited_visitTree h.isRoot).settled (fun p way hp => ?_) id hid
  have hplace : (p.relabel r, way.map (Primitive.relabel r)) ∈ (other.tree (root.relabel r)).places [] := by
    rw [h.tree_eq hforest hother, ← List.map_nil, Tree.places_relabel]
    exact List.mem_map_of_mem hp
  have hsettled := (hother.visited_visitTree (h.root_mem hforest)).settled _ _ hplace
  rw [← List.map_cons, List.map_map] at hsettled
  rw [Scope.relabel, List.map_map]
  exact hsettled

/-- The other registry has the ids of the tree, relabelled, in its own tree. -/
theorem mem_ids_relabel (hid : id ∈ (registry.tree root).ids) : r id ∈ (other.tree (root.relabel r)).ids := by
  rw [h.tree_eq hforest hother, Tree.ids_relabel]
  exact List.mem_map_of_mem hid

/-- The two roots have the same markup. -/
theorem rendered?_root : (other.visitTree (root.relabel r)).2.rendered? (root.relabel r).id =
    (registry.visitTree root).2.rendered? root.id :=
  (h.mirrors hforest hother (id_mem_ids_tree registry root)).rendered?

/-- Resolutions of the two registries tell the same state, but for the ids. -/
theorem state?_addTrees (hid : id ∈ (registry.tree root).ids) :
    (other.addTrees Resolution.empty other.roots).state? (r id) =
      ((registry.addTrees Resolution.empty registry.roots).state? id).map (State.relabel r) := by
  rw [hother.state?_addTrees (h.root_mem hforest) (h.mem_ids_relabel hforest hother hid),
    hforest.state?_addTrees h.isRoot hid, state?_resolveTree, state?_resolveTree, (h.mirrors hforest hother hid).attempt,
    Option.map_map, Option.map_map]
  exact congrArg (Option.map · _) (funext Attempt.state_relabel)

/-- Resolutions of the two registries count as many attempts. -/
theorem evaluationsOf_addTrees (hid : id ∈ (registry.tree root).ids) :
    (other.addTrees Resolution.empty other.roots).evaluationsOf (r id) =
      (registry.addTrees Resolution.empty registry.roots).evaluationsOf id := by
  rw [hother.evaluationsOf_addTrees (h.root_mem hforest) (h.mem_ids_relabel hforest hother hid),
    hforest.evaluationsOf_addTrees h.isRoot hid, (h.mirrors hforest hother hid).evaluations]

/-- Resolutions of the two registries leave the same primitives deferred. -/
theorem isDeferred_addTrees (hid : id ∈ (registry.tree root).ids) :
    (other.addTrees Resolution.empty other.roots).isDeferred (r id) =
      (registry.addTrees Resolution.empty registry.roots).isDeferred id := by
  rw [Resolution.isDeferred, Resolution.isDeferred, h.state?_addTrees hforest hother hid, Option.any_map]
  exact congrArg (Option.any · _) (funext fun state => congrArg not state.isResolved_relabel)

/-- Resolutions of the two registries have rendered the same primitives after they had bubbled. -/
theorem isBubbled_addTrees (hid : id ∈ (registry.tree root).ids) :
    (other.addTrees Resolution.empty other.roots).isBubbled (r id) =
      (registry.addTrees Resolution.empty registry.roots).isBubbled id := by
  rw [Resolution.isBubbled, Resolution.isBubbled, h.isDeferred_addTrees hforest hother hid,
    h.evaluationsOf_addTrees hforest hother hid]

/-- A primitive has bubbled as far as it has under its other id. -/
theorem bubbleDistance_addTrees {p : Primitive} {way : List Primitive} (hp : (p, way) ∈ (registry.tree root).places []) :
    (other.addTrees Resolution.empty other.roots).bubbleDistance (p.relabel r) (way.map (Primitive.relabel r)) =
      (registry.addTrees Resolution.empty registry.roots).bubbleDistance p way := by
  have hid := Tree.mem_ids_of_mem_places hp
  have hdeferred := h.isDeferred_addTrees hforest hother hid
  have hevaluations := h.evaluationsOf_addTrees hforest hother hid
  unfold Resolution.bubbleDistance
  rw [List.length_map]
  exact if_congr (by rw [← hdeferred]; rfl) rfl (congrArg (· - 1) hevaluations)

/-- The counts over a tree do not depend on its ids, nor on what else is registered. -/
theorem stats_resolveTree : (other.resolveTree (root.relabel r)).1.stats = (registry.resolveTree root).1.stats := by
  have hroot := h.root_mem hforest
  have hids : (other.tree (root.relabel r)).ids = (registry.tree root).ids.map r := by
    rw [h.tree_eq hforest hother, Tree.ids_relabel]
  have hplaces : (other.tree (root.relabel r)).places [] =
      ((registry.tree root).places []).map (Prod.map (Primitive.relabel r) (List.map (Primitive.relabel r))) := by
    rw [h.tree_eq hforest hother, ← List.map_nil, Tree.places_relabel]
    rfl
  have hdeferred := fun id (hid : id ∈ (registry.tree root).ids) => h.isDeferred_addTrees hforest hother hid
  have hbubbled := fun id (hid : id ∈ (registry.tree root).ids) => h.isBubbled_addTrees hforest hother hid
  ext
  · rw [trees_resolveTree, trees_resolveTree]
  · rw [hother.nodes_resolveTree hroot, hforest.nodes_resolveTree h.isRoot, hids, List.length_map]
  · rw [hother.evaluations_resolveTree hroot, hforest.evaluations_resolveTree h.isRoot, hids, List.map_map]
    exact congrArg List.sum (List.map_congr_left fun id hid => h.evaluationsOf_addTrees hforest hother hid)
  · rw [hother.deferrals_resolveTree hroot, hforest.deferrals_resolveTree h.isRoot, hids, List.countP_map]
    exact List.countP_congr fun id hid => by rw [Function.comp_apply, hdeferred id hid, hbubbled id hid]
  · rw [hother.bubbled_resolveTree hroot, hforest.bubbled_resolveTree h.isRoot, hids, List.countP_map]
    exact List.countP_congr fun id hid => by rw [Function.comp_apply, hbubbled id hid]
  · rw [hother.maxBubbleDistance_resolveTree hroot, hforest.maxBubbleDistance_resolveTree h.isRoot, hplaces, List.map_map]
    exact congrArg greatest (List.map_congr_left fun _ hp => h.bubbleDistance_addTrees hforest hother hp)
  · rw [hother.unresolved_resolveTree hroot, hforest.unresolved_resolveTree h.isRoot, hids, List.countP_map]
    exact List.countP_congr fun id hid => by rw [Function.comp_apply, hdeferred id hid]

/-- The tree is rendered as it is under the other ids. -/
theorem tree?_addTrees : (other.addTrees Resolution.empty other.roots).tree? (r root.id) =
    ((registry.addTrees Resolution.empty registry.roots).tree? root.id).map (ResolvedTree.relabel r) := by
  have hentry := other.tree?_addTrees (h.root_mem hforest)
  rw [h.rendered?_root hforest hother] at hentry
  rw [registry.tree?_addTrees h.isRoot]
  exact hentry

end HoldsTree

/-- Whatever valid registry a tree is in, the same is told of it. -/
theorem HoldsTree.agreesOn (h : other.HoldsTree registry (fun id => id) root) (hforest : registry.IsForest) (hother : other.IsForest) :
    (other.addTrees Resolution.empty other.roots).AgreesOn (registry.addTrees Resolution.empty registry.roots)
      (registry.tree root) where
  states name hname := by
    have hstate := h.state?_addTrees hforest hother hname
    rwa [funext State.relabel_id, Option.map_id'] at hstate
  evaluations _ hname := h.evaluationsOf_addTrees hforest hother hname
  tree := by
    have hentry := h.tree?_addTrees hforest hother
    rw [tree_top]
    exact hentry.trans Option.map_id_apply

/-! ## All trees -/

namespace Relabels

variable (h : other.Relabels registry r) (hforest : registry.IsForest)

include h hforest

/-- The order of the trees does not show in the counts over all of them. -/
theorem stats_addTrees : (other.addTrees Resolution.empty other.roots).stats =
    (registry.addTrees Resolution.empty registry.roots).stats := by
  have hother := h.isForest hforest
  have hcommutes : RightCommutative fun (stats : Stats) root => stats.add (other.resolveTree root).1.stats :=
    ⟨fun stats first second => stats.add_right_comm _ _⟩
  rw [Registry.stats_addTrees, Registry.stats_addTrees, h.perm_roots.foldl_eq, List.foldl_map]
  exact List.foldl_ext _ _ _ fun stats root hroot =>
    congrArg stats.add ((h.holdsTree hforest hroot).stats_resolveTree hforest hother)

/-- The trees come in the order of their roots, and are rendered as they are under the other ids. -/
theorem trees_addTrees : (other.addTrees Resolution.empty other.roots).trees.Perm
    ((registry.addTrees Resolution.empty registry.roots).trees.map (ResolvedTree.relabel r)) := by
  have hother := h.isForest hforest
  rw [Registry.trees_addTrees, Registry.trees_addTrees]
  refine (h.perm_roots.map _).trans (List.Perm.of_eq ?_)
  show List.map _ (List.map _ _) = List.map _ (List.map _ _)
  rw [List.map_map, List.map_map]
  refine List.map_congr_left fun root hroot => ?_
  exact congrArg (ResolvedTree.mk (r root.id)) ((h.holdsTree hforest hroot).rendered?_root hforest hother)

/-- All that is told of a valid registry is told of it under other ids. -/
theorem resolution_relabels : (other.addTrees Resolution.empty other.roots).Relabels
    (registry.addTrees Resolution.empty registry.roots) r registry other where
  states id hid := by
    obtain ⟨root, hroot, hin⟩ := hforest.mem_ids_iff.1 hid
    exact (h.holdsTree hforest hroot).state?_addTrees hforest (h.isForest hforest) hin
  evaluations id hid := by
    obtain ⟨root, hroot, hin⟩ := hforest.mem_ids_iff.1 hid
    exact (h.holdsTree hforest hroot).evaluationsOf_addTrees hforest (h.isForest hforest) hin
  covered name := by
    rw [(h.isForest hforest).mem_names_states, h.perm_ids.mem_iff, List.mem_map]
  stats := h.stats_addTrees hforest
  trees := h.trees_addTrees hforest
  order := by
    rw [Registry.trees_addTrees, Resolution.empty, List.nil_append, List.map_map]
    rfl

end Relabels

/-- Resolution does not depend on the ids of a valid registry, on the order of its primitives, or on what other trees there
are. With other ids that are as different as those of the registry, and in any order, the registry is valid too and the same is
told of it under these ids; and in whatever valid registry the primitives of a tree are, the same is told of the tree. -/
theorem resolve_relabel {config : Config} (hvalid : registry.validate = .ok ())
    (hpolicy : config.onUnresolvable = .deferToServe) :
    ∃ resolution, registry.resolve config = .ok resolution ∧
      (∀ (r : String → String) (other : Registry), other.Relabels registry r →
        other.validate = .ok () ∧ ∃ renamed, other.resolve config = .ok renamed ∧
          renamed.Relabels resolution r registry other) ∧
      ∀ other : Registry, other.validate = .ok () → ∃ rest, other.resolve config = .ok rest ∧
        ∀ root ∈ registry.roots, (∀ p ∈ registry.primitives, p.id ∈ (registry.tree root).ids → p ∈ other.primitives) →
          rest.AgreesOn resolution (registry.tree root) := by
  have hforest := (wellFormed_of_validate hvalid).forest
  refine ⟨_, resolve_deferToServe hvalid hpolicy, fun r other h => ?_, fun other hother => ?_⟩
  · have hother := h.validate hvalid
    exact ⟨hother, _, resolve_deferToServe hother hpolicy, h.resolution_relabels hforest⟩
  · refine ⟨_, resolve_deferToServe hother hpolicy, fun root hroot hheld => ?_⟩
    exact (HoldsTree.of_mem hroot hheld).agreesOn hforest (wellFormed_of_validate hother).forest

end Registry

/-- The gallery with its primitives in the opposite order, each with an id that holds the sign `#`. -/
def numberedGallery : Registry where
  route? := some "/gallery"
  primitives := (gallery.primitives.map (Primitive.relabel fun id => "#" ++ id)).reverse
  nodup := by decide

/-- The gallery without the tree that is its foot. -/
def footlessGallery : Registry where
  route? := some "/gallery"
  primitives := gallery.primitives.filter fun p => p.id ≠ "foot"
  nodup := by decide

namespace Registry

/-- The numbered gallery is the gallery in the opposite order, with a sign in front of each id. -/
theorem numberedGallery_relabels : numberedGallery.Relabels gallery fun id => "#" ++ id where
  perm := List.reverse_perm _
  injective _ _ _ _ hsame := by simpa using hsame

/-- The gallery has the same markup under other ids and without its foot. -/
theorem gallery_relabelled :
    ∃ resolution renamed rest, gallery.resolve (Config.withPolicy {} .deferToServe) = .ok resolution ∧
      numberedGallery.resolve (Config.withPolicy {} .deferToServe) = .ok renamed ∧
      footlessGallery.resolve (Config.withPolicy {} .deferToServe) = .ok rest ∧
      renamed.Relabels resolution (fun id => "#" ++ id) gallery numberedGallery ∧
      renamed.state? "#page" = some (.resolved
        "<main label=\"&lt;&quot;a&quot;&gt;\"><hr hidden /><h1>__RUXY_SV_siteName__</h1></main>") ∧
      renamed.trees.map (·.root) = ["#foot", "#page"] ∧
      ∀ root ∈ gallery.roots, root.id = "page" → rest.AgreesOn resolution (gallery.tree root) := by
  obtain ⟨resolution, hresolve, hrenamed, hrest⟩ :=
    resolve_relabel (show gallery.validate = .ok () by rfl) (show (Config.withPolicy {} .deferToServe).onUnresolvable = _ from rfl)
  obtain ⟨-, renamed, hresolved, hrelabels⟩ := hrenamed _ _ numberedGallery_relabels
  obtain ⟨rest, hresolvedRest, hagrees⟩ := hrest footlessGallery (by rfl)
  have hstate := hrelabels.states "page" (by decide)
  obtain rfl : gallery.addTrees Resolution.empty gallery.roots = resolution := Except.ok.inj (resolve_gallery.symm.trans hresolve)
  rw [state?_gallery_page] at hstate
  have hheld : ∀ root ∈ gallery.roots, root.id = "page" →
      ∀ p ∈ gallery.primitives, p.id ∈ (gallery.tree root).ids → p.id ≠ "foot" := by
    decide
  refine ⟨_, renamed, rest, hresolve, hresolved, hresolvedRest, hrelabels, hstate, hrelabels.order, fun root hroot hpage => ?_⟩
  exact hagrees root hroot fun p hp hid => List.mem_filter.2 ⟨hp, decide_eq_true (hheld root hroot hpage p hp hid)⟩

end Registry

end Prebake
