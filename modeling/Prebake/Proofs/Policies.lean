import Prebake.Proofs.Culprit
import Prebake.Proofs.Outcome
import Prebake.Proofs.Registry.Selection
import Prebake.Proofs.Relabelling

/-!
# Two policies for trees that stay deferred

Both policies visit the same trees in the same way. If the build is to fail, it fails at the first root that stays deferred
(`resolveTrees_fail`), and it tells the rest just as if that root were left to serve time. So the policies agree on registries
without such a root, and on all others the trees that are rendered are those of the registry without the failing trees
(`resolve_policies`).
-/

namespace Prebake

open Relation

/-- A primitive is deferred if its state says so. -/
theorem Resolution.isDeferred_iff {resolution : Resolution} {id : String} :
    resolution.isDeferred id = true ↔ ∃ reason, resolution.state? id = some (.deferred reason) := by
  rw [isDeferred]
  rcases resolution.state? id with _ | (html | reason) <;> simp [State.isResolved]

namespace Registry

variable {registry : Registry} {root : Primitive}

/-! ## The first failure -/

/-- Whether the root of a tree stays deferred. -/
def fails (registry : Registry) (root : Primitive) : Bool := ((registry.visitTree root).2.rendered? root.id).isNone

/-- If the build is to fail, it fails at the first root that stays deferred. -/
theorem resolveTrees_fail (registry : Registry) (resolution : Resolution) (roots : List Primitive) :
    registry.resolveTrees .fail resolution roots = match roots.find? registry.fails with
      | none => .ok (registry.addTrees resolution roots)
      | some root => .error ((registry.visitTree root).2.failure root.id) := by
  induction roots generalizing resolution with
  | nil => rfl
  | cons root roots ih =>
    rw [resolveTrees_cons, failure?_resolveTree, List.find?_cons, fails]
    cases (registry.visitTree root).2.rendered? root.id with
    | none => rfl
    | some rendered => exact ih _

/-- If the build is to fail, it fails for the first root without markup, if there is one. -/
theorem resolve_fail {config : Config} (hvalid : registry.validate = .ok ()) (hpolicy : config.onUnresolvable = .fail) :
    registry.resolve config = match registry.roots.find? registry.fails with
      | none => .ok (registry.addTrees Resolution.empty registry.roots)
      | some root => .error ((registry.visitTree root).2.failure root.id) := by
  rw [resolve, hvalid, hpolicy]
  exact registry.resolveTrees_fail _ _

/-! ## Roots and trees -/

/-- A root is deferred if its visit leaves it without markup. -/
theorem IsForest.isDeferred_root (hforest : registry.IsForest) (hroot : root ∈ registry.roots) :
    (registry.addTrees Resolution.empty registry.roots).isDeferred root.id = registry.fails root :=
  hforest.isDeferred_addTrees hroot (id_mem_ids_tree registry root)

/-- The tree of each root, with the markup that its visit found. -/
theorem mem_trees_addTrees {tree : ResolvedTree} : tree ∈ (registry.addTrees Resolution.empty registry.roots).trees ↔
    ∃ root ∈ registry.roots, ⟨root.id, (registry.visitTree root).2.rendered? root.id⟩ = tree := by
  rw [trees_addTrees, Resolution.empty, List.nil_append, List.mem_map]

/-- All trees are rendered exactly if no root stays deferred. -/
theorem forall_rendered_iff : (∀ tree ∈ (registry.addTrees Resolution.empty registry.roots).trees, tree.rendered?.isSome) ↔
    registry.roots.find? registry.fails = none := by
  rw [trees_addTrees, Resolution.empty, List.nil_append, List.forall_mem_map, List.find?_eq_none]
  refine forall₂_congr fun root _ => ?_
  rw [fails]
  cases (registry.visitTree root).2.rendered? root.id <;> simp

/-- If no root stays deferred, no primitive does. -/
theorem isResolved_of_find? (hvalid : registry.validate = .ok ())
    (hrendered : registry.roots.find? registry.fails = none) {id : String} {state : State}
    (hstate : (registry.addTrees Resolution.empty registry.roots).state? id = some state) : state.isResolved = true := by
  have hforest := (wellFormed_of_validate hvalid).forest
  have hresolve := resolve_deferToServe hvalid (show (Config.withPolicy {} .deferToServe).onUnresolvable = _ from rfl)
  have hid : id ∈ registry.ids := by
    refine hforest.mem_names_states.1 (NameMap.mem_names_iff.2 ?_)
    rw [NameMap.contains]
    exact Option.isSome_iff_exists.2 ⟨state, hstate⟩
  obtain ⟨root, hroot, hin⟩ := hforest.mem_ids_iff.1 hid
  have hdown := (hforest.grown_tree hroot).reflTransGen id hin
  rw [tree_top] at hdown
  -- a resolved root leaves nothing deferred below it
  have htop : ∃ html, (registry.addTrees Resolution.empty registry.roots).state? root.id = some (.resolved html) := by
    have hfails := List.find?_eq_none.1 hrendered root hroot
    cases hfound : (registry.visitTree root).2.rendered? root.id with
    | none => exact absurd (by rw [fails, hfound]; rfl) hfails
    | some rendered =>
      refine ⟨rendered.html, ?_⟩
      rw [hforest.state?_root hroot, Progress.rendered?_eq_some_iff.1 hfound]
      rfl
  obtain ⟨html, htop⟩ := htop
  obtain ⟨markup, hmarkup⟩ := exists_state?_of_reflTransGen hresolve htop hdown
  rw [hmarkup] at hstate
  cases hstate
  rfl

/-! ## The trees that are rendered -/

variable {keep : Primitive → Bool}

/-- A registry that is cut down to some trees holds them as they are. -/
theorem holdsTree_only (hroot : root ∈ registry.roots) (hkeep : keep root = true) :
    (registry.only keep).HoldsTree registry (fun id => id) root :=
  .of_mem hroot fun _ hp hin => mem_only hroot hkeep hp hin

/-- A tree is rendered as it would be among all trees. -/
theorem rendered?_only (hvalid : registry.validate = .ok ()) (hroot : root ∈ registry.roots) (hkeep : keep root = true) :
    ((registry.only keep).visitTree root).2.rendered? root.id = (registry.visitTree root).2.rendered? root.id := by
  have hsame := (holdsTree_only hroot hkeep).rendered?_root (wellFormed_of_validate hvalid).forest
    (wellFormed_of_validate (only_validate hvalid)).forest
  rwa [Primitive.relabel_id] at hsame

/-- Without the trees that fail, a registry is resolved under either policy, and the trees that are left are rendered as they
are beside those that fail. -/
theorem resolve_only {config : Config} (hvalid : registry.validate = .ok ()) (hpolicy : config.onUnresolvable = .fail)
    (hkeep : ∀ root ∈ registry.roots, keep root = !registry.fails root) :
    (registry.only keep).resolve config = .ok ((registry.only keep).addTrees Resolution.empty (registry.only keep).roots) ∧
      ((registry.only keep).addTrees Resolution.empty (registry.only keep).roots).trees =
        (registry.addTrees Resolution.empty registry.roots).trees.filter fun tree => tree.rendered?.isSome := by
  have hroots : (registry.only keep).roots = registry.roots.filter keep :=
    (wellFormed_of_validate hvalid).forest.roots_only
  have hmarkup : ∀ root ∈ registry.roots.filter keep,
      ((registry.only keep).visitTree root).2.rendered? root.id = (registry.visitTree root).2.rendered? root.id := by
    intro root hroot
    obtain ⟨hroot, hkept⟩ := List.mem_filter.1 hroot
    exact rendered?_only hvalid hroot hkept
  constructor
  · have hnone : (registry.only keep).roots.find? (registry.only keep).fails = none := by
      rw [hroots, List.find?_eq_none]
      intro root hroot
      rw [fails, hmarkup root hroot]
      obtain ⟨hroot, hkept⟩ := List.mem_filter.1 hroot
      rw [hkeep root hroot, fails, Option.not_isNone] at hkept
      simpa [← Option.isSome_iff_ne_none] using hkept
    rw [resolve_fail (only_validate hvalid) hpolicy, hnone]
  · rw [trees_addTrees, trees_addTrees, Resolution.empty, List.nil_append, List.nil_append, List.filter_map, hroots]
    have hfilter : registry.roots.filter keep =
        registry.roots.filter fun root => ((registry.visitTree root).2.rendered? root.id).isSome :=
      List.filter_congr fun root hroot => by rw [hkeep root hroot, fails, Option.not_isNone]
    rw [hfilter] at hmarkup ⊢
    exact List.map_congr_left fun root hroot => by rw [hmarkup root hroot]

/-! ## Agreement -/

/-- How resolution with failures compares to a resolution that leaves deferred trees to serve time. -/
structure PoliciesAgree (registry : Registry) (strict : Config) (resolution : Resolution) : Prop where
  success : ∀ result, registry.resolve strict = .ok result ↔
    result = resolution ∧ ∀ tree ∈ resolution.trees, tree.rendered?.isSome
  /-- If all trees are rendered, nothing is deferred. -/
  resolved : (∀ tree ∈ resolution.trees, tree.rendered?.isSome) →
    (∀ id state, resolution.state? id = some state → state.isResolved = true) ∧ resolution.stats.unresolved = 0
  /-- If one is not, the failure is that of the first root that is deferred. -/
  failure : (∃ tree ∈ resolution.trees, tree.rendered? = none) → ∃ root id chain reason,
    registry.resolve strict = .error (.unresolvable id chain reason) ∧
      registry.roots.find? (fun root => resolution.isDeferred root.id) = some root ∧ chain.getLast? = some root.id
  /-- The trees without markup are those with a deferred root. -/
  unrendered : ∀ tree ∈ resolution.trees, tree.rendered? = none ↔ ∃ reason, resolution.state? tree.root = some (.deferred reason)
  /-- The other trees are what they are without those trees. -/
  unaffected : ∃ kept, (registry.only fun root => !resolution.isDeferred root.id).resolve strict = .ok kept ∧
    kept.trees = resolution.trees.filter (fun tree => tree.rendered?.isSome) ∧
    ∀ root ∈ registry.roots, resolution.isDeferred root.id = false → kept.AgreesOn resolution (registry.tree root)

/-- The two policies agree on every valid registry. -/
theorem resolve_policies {strict lenient : Config} (hvalid : registry.validate = .ok ())
    (hstrict : strict.onUnresolvable = .fail) (hlenient : lenient.onUnresolvable = .deferToServe) :
    ∃ resolution, registry.resolve lenient = .ok resolution ∧ registry.PoliciesAgree strict resolution := by
  have hforest := (wellFormed_of_validate hvalid).forest
  have hdeferred := fun root (hroot : root ∈ registry.roots) => hforest.isDeferred_root hroot
  have hkeep : ∀ root ∈ registry.roots,
      (!(registry.addTrees Resolution.empty registry.roots).isDeferred root.id) = !registry.fails root :=
    fun root hroot => congrArg not (hdeferred root hroot)
  have hfail := resolve_fail hvalid hstrict
  refine ⟨_, resolve_deferToServe hvalid hlenient, ?_, ?_, ?_, ?_, ?_⟩
  · intro result
    rw [forall_rendered_iff, hfail]
    cases hfound : registry.roots.find? registry.fails with
    | none => simp [eq_comm]
    | some root => simp
  · intro hrendered
    rw [forall_rendered_iff] at hrendered
    have hresolved : ∀ id state, (registry.addTrees Resolution.empty registry.roots).state? id = some state →
        state.isResolved = true := fun _ _ => isResolved_of_find? hvalid hrendered
    refine ⟨hresolved, ?_⟩
    rw [hforest.accounts.unresolved, List.countP_eq_zero]
    intro entry hentry
    rw [hresolved _ _ (NameMap.find?_of_mem_entries hentry)]
    simp
  · -- the first root without markup is the one for which the strict build fails
    rintro ⟨tree, htree, hnone⟩
    cases hfound : registry.roots.find? registry.fails with
    | none =>
      have hrendered := forall_rendered_iff.2 hfound tree htree
      rw [hnone] at hrendered
      cases hrendered
    | some root =>
      have hroot := List.mem_of_find?_eq_some hfound
      have hfails : registry.fails root = true := List.find?_some hfound
      have hunrendered := Option.isNone_iff_eq_none.1 hfails
      obtain ⟨id, chain, reason, hfailure, hblames⟩ := hforest.exists_failure hroot hunrendered
      rw [failure?_resolveTree, hunrendered] at hfailure
      refine ⟨root, id, chain, reason, ?_, (List.find?_congr hdeferred).trans hfound, hblames.last⟩
      rw [hfail, hfound]
      exact congrArg Except.error (Option.some.inj hfailure)
  · intro tree htree
    obtain ⟨root, hroot, rfl⟩ := mem_trees_addTrees.1 htree
    rw [← Resolution.isDeferred_iff, hdeferred root hroot]
    exact Option.isNone_iff_eq_none.symm
  · -- without the failing trees nothing fails, and what is left is held by the whole registry
    obtain ⟨hresolve, htrees⟩ := resolve_only hvalid hstrict hkeep
    refine ⟨_, hresolve, htrees, fun root hroot hrendered => ?_⟩
    exact (holdsTree_only hroot (by rw [hrendered]; rfl)).agreesOn hforest
      (wellFormed_of_validate (only_validate hvalid)).forest

end Registry

/-- The gallery with a note whose author nothing binds. -/
def unsignedGallery : Registry where
  route? := some "/gallery"
  primitives := (Primitive.new "note" "aside").withProp "children" (.expression "author") :: gallery.primitives
  nodup := by decide

namespace Registry

/-- The note in front of the gallery fails, and the other two trees are rendered all the same. -/
theorem unsignedGallery_policiesAgree :
    ∃ resolution, unsignedGallery.resolve (Config.withPolicy {} .deferToServe) = .ok resolution ∧
      unsignedGallery.PoliciesAgree {} resolution ∧
      resolution.trees.map (fun tree => (tree.root, tree.rendered?.isSome)) = [("note", false), ("page", true), ("foot", true)] ∧
      unsignedGallery.resolve {} = .error (.unresolvable "note" ["note"] (.missingBinding "children" "author")) := by
  have hvalid : unsignedGallery.validate = .ok () := by rfl
  obtain ⟨resolution, hresolve, hagree⟩ := @resolve_policies _ {} (Config.withPolicy {} .deferToServe) hvalid rfl rfl
  have hwhole := Except.ok.inj ((resolve_deferToServe hvalid rfl).symm.trans hresolve)
  refine ⟨resolution, hresolve, hagree, ?_, by rfl⟩
  rw [← hwhole]
  rfl

end Registry

end Prebake
