import Mathlib.Data.List.Find
import Prebake.Proofs.Coverage

/-!
# Why a tree stays deferred

A tree whose root stays deferred ends with a failure that names one primitive and the way up from it to the root. Reasons are
never out of date: a primitive that is deferred because of a child is deferred because of the first child that is deferred in
the end (`Progress.Visited.find?_children`), so the reasons lead down from the root to a primitive that lacks something itself
(`resolve_failure_names_culprit`).
-/

namespace Prebake

/-! ## Visited trees -/

namespace Progress

variable {registry : Registry} {progress before : Progress} {tree : Tree} {pending : List String} {p : Primitive}
  {way : List Primitive} {id child : String} {reason : Reason}

/-- A primitive has a reason if the latest attempt for it failed with that reason. -/
theorem reason?_eq_some_iff : progress.reason? id = some reason ↔ progress.attempts.find? id = some (.error reason) := by
  unfold reason?
  rcases progress.attempts.find? id with _ | (_ | _) <;> simp

/-- Each of these primitives is deferred because of the one before it. -/
def BlamesAlong (progress : Progress) (way : List Primitive) : Prop :=
  way.IsChain fun child parent => progress.reason? parent.id = some (.deferredChild child.id)

namespace Visited

/-- There is a reason for every primitive that is deferred after a visit. -/
theorem exists_reason (h : Visited progress before tree pending) (hp : (p, way) ∈ tree.places [])
    (hdeferred : progress.rendered? p.id = none) : ∃ reason, progress.reason? p.id = some reason := by
  have hattempt := (h.settled p way hp).attempt
  cases htrial : progress.trial p ((p :: way).map Primitive.layer) (progress.evaluationsOf p.id) with
  | ok rendered =>
    rw [rendered?, hattempt, htrial] at hdeferred
    cases hdeferred
  | error reason => exact ⟨reason, reason?_eq_some_iff.2 (hattempt.trans (congrArg some htrial))⟩

/-- A primitive that a child defers after a visit is deferred by the first child that is deferred after it. -/
theorem find?_children (h : Visited progress before tree pending) (hgrown : Tree.Grown registry [] tree)
    (hp : (p, way) ∈ tree.places []) (hreason : progress.reason? p.id = some (.deferredChild child)) :
    p.children.find? (fun id => (progress.rendered? id).isNone) = some child := by
  have hlatest := (h.settled p way hp).attempt_of_isOpen (reason?_eq_some_iff.1 hreason) rfl fun child =>
    h.evaluationsOf_child_le hgrown hp
  exact Primitive.find?_of_attempt_eq_deferredChild hlatest.symm

/-- Followed down for enough steps, the reasons end at a primitive that is deferred for a reason of its own. -/
theorem exists_culprit (h : Visited progress before tree pending) (hforest : registry.IsForest)
    (hgrown : Tree.Grown registry [] tree) {steps : Nat} (hp : (p, way) ∈ tree.places [])
    (hblames : progress.BlamesAlong (p :: way)) (hdeferred : progress.rendered? p.id = none)
    (hsteps : tree.ids.length ≤ steps + way.length) (reason : Reason) :
    ∃ q above last, (q, above) ∈ tree.places [] ∧ progress.BlamesAlong (q :: above) ∧
      progress.reason? q.id = some last ∧ (∀ child, last ≠ .deferredChild child) ∧
      progress.culprit steps (way.map (·.id)) p.id reason = ((q :: above).map (·.id), last) := by
  induction steps generalizing p way reason with
  | zero =>
    -- more steps than primitives are never taken, since a way goes through none twice
    have hlength := hgrown.length_way_lt hforest hp
    omega
  | succ steps ih =>
    obtain ⟨last, hlast⟩ := h.exists_reason hp hdeferred
    cases last with
    | deferredChild child =>
      -- a child that is blamed is deferred, so the reasons lead on to it
      have hfirst := h.find?_children hgrown hp hlast
      obtain ⟨c, hc, rfl⟩ := hgrown.exists_child_place hp (List.mem_of_find?_eq_some hfirst)
      have hnone : progress.rendered? c.id = none := by simpa using List.find?_some hfirst
      obtain ⟨q, above, last, hq, habove, hreason, hown, hculprit⟩ :=
        ih hc (List.isChain_cons_cons.2 ⟨hlast, hblames⟩) hnone (by simp only [List.length_cons]; omega)
          (.deferredChild c.id)
      refine ⟨q, above, last, hq, habove, hreason, hown, ?_⟩
      rw [culprit, hlast]
      exact hculprit
    | missingBinding prop name => exact ⟨p, way, _, hp, hblames, hlast, nofun, by rw [culprit, hlast]; rfl⟩
    | runtimeOnly prop name => exact ⟨p, way, _, hp, hblames, hlast, nofun, by rw [culprit, hlast]; rfl⟩
    | notComputable prop obstacle => exact ⟨p, way, _, hp, hblames, hlast, nofun, by rw [culprit, hlast]; rfl⟩

end Visited

end Progress

/-! ## Failures -/

/-- A child defers its parent: it is named as the reason, and it is the first child that is still deferred. -/
structure Registry.DeferredBy (registry : Registry) (resolution : Resolution) (child parent : String) : Prop where
  isParent : ∃ c ∈ registry.primitives, c.id = child ∧ c.parent? = some parent
  named : resolution.state? parent = some (.deferred (.deferredChild child))
  isFirst : ∃ p ∈ registry.primitives, p.id = parent ∧ p.children.find? resolution.isDeferred = some child

/-- What a failure tells of a tree that stays deferred: a primitive is deferred for a reason of its own, and from it up to the
root each primitive defers its parent. -/
structure Registry.Blames (registry : Registry) (resolution : Resolution) (root id : String) (chain : List String)
    (reason : Reason) : Prop where
  first : chain.head? = some id
  last : chain.getLast? = some root
  links : chain.IsChain (registry.DeferredBy resolution)
  named : resolution.state? id = some (.deferred reason)
  own : ∀ child, reason ≠ .deferredChild child

namespace Registry

variable {registry : Registry} {root p q : Primitive} {above : List Primitive} {id : String} {reason : Reason}

/-- A tree ends with a failure exactly if its root has no markup. -/
theorem failure?_resolveTree (registry : Registry) (root : Primitive) : (registry.resolveTree root).2 =
    if ((registry.visitTree root).2.rendered? root.id).isSome then none
    else some ((registry.visitTree root).2.failure root.id) := rfl

/-- A reason that is left at the end of a visit is told by the resolution. -/
theorem state?_resolveTree_of_reason? (h : (registry.visitTree root).2.reason? id = some reason) :
    (registry.resolveTree root).1.state? id = some (.deferred reason) := by
  rw [state?_resolveTree, Progress.reason?_eq_some_iff.1 h]
  rfl

/-- A primitive that is the reason for which the one above it is deferred defers its parent. -/
theorem IsForest.deferredBy (hforest : registry.IsForest) (hroot : root ∈ registry.roots)
    (hp : (p, q :: above) ∈ (registry.tree root).places [])
    (hreason : (registry.visitTree root).2.reason? q.id = some (.deferredChild p.id)) :
    registry.DeferredBy (registry.resolveTree root).1 p.id q.id := by
  have hgrown := hforest.grown_tree hroot
  have hlineage := hgrown.lineage_of_mem_places hp
  have hq := Tree.mem_places_of_cons hp
  obtain ⟨hregistered, hdeclared⟩ := parentOf?_eq_some_iff.1 (List.isChain_cons_cons.1 hlineage.parents).1
  refine ⟨⟨p, hlineage.registered p List.mem_cons_self, rfl, hdeclared⟩, state?_resolveTree_of_reason? hreason,
    q, hregistered, rfl, ?_⟩
  rw [← (hforest.visited_visitTree hroot).find?_children hgrown hq hreason]
  refine List.find?_congr fun child hchild => ?_
  exact hforest.isDeferred_resolveTree hroot (hgrown.child_mem_ids hq hchild)

/-- Reasons that lead down a way are told by the resolution as a chain up it. -/
theorem IsForest.isChain_deferredBy (hforest : registry.IsForest) (hroot : root ∈ registry.roots)
    (hp : (p, above) ∈ (registry.tree root).places [])
    (hblames : (registry.visitTree root).2.BlamesAlong (p :: above)) :
    ((p :: above).map (·.id)).IsChain (registry.DeferredBy (registry.resolveTree root).1) := by
  induction above generalizing p with
  | nil => exact List.isChain_singleton _
  | cons q above ih =>
    obtain ⟨hreason, hrest⟩ := List.isChain_cons_cons.1 hblames
    exact List.isChain_cons_cons.2 ⟨hforest.deferredBy hroot hp hreason, ih (Tree.mem_places_of_cons hp) hrest⟩

/-- A tree whose root is deferred ends with a failure, and this one tells why. -/
theorem IsForest.exists_failure (hforest : registry.IsForest) (hroot : root ∈ registry.roots)
    (hdeferred : (registry.visitTree root).2.rendered? root.id = none) :
    ∃ id chain reason, (registry.resolveTree root).2 = some (.unresolvable id chain reason) ∧
      registry.Blames (registry.resolveTree root).1 root.id id chain reason := by
  have hvisited := hforest.visited_visitTree hroot
  have hgrown := hforest.grown_tree hroot
  have htop := Tree.top_mem_places [] (registry.tree root)
  rw [tree_top] at htop
  have hsteps : (registry.tree root).ids.length ≤
      (registry.visitTree root).2.attempts.size + ([] : List Primitive).length := (hforest.size_attempts hroot).symm.le
  obtain ⟨q, above, last, hq, habove, hreason, hown, hculprit⟩ :=
    hvisited.exists_culprit hforest hgrown htop (List.isChain_singleton _) hdeferred hsteps (.deferredChild root.id)
  have hfailure : (registry.visitTree root).2.failure root.id = .unresolvable q.id ((q :: above).map (·.id)) last := by
    rw [List.map_nil] at hculprit
    rw [Progress.failure, hculprit]
    rfl
  refine ⟨q.id, (q :: above).map (·.id), last, ?_, rfl, ?_, hforest.isChain_deferredBy hroot hq habove,
    state?_resolveTree_of_reason? hreason, hown⟩
  · rw [failure?_resolveTree, hdeferred, hfailure]
    rfl
  · rw [List.getLast?_map, Tree.getLast?_of_mem_places hq, tree_top]
    rfl

/-- Trees that are not resolved end with the failure of one of them. -/
theorem exists_root_of_resolveTrees_eq_error {policy : Policy} {roots : List Primitive} {resolution : Resolution}
    {failure : Failure} (h : registry.resolveTrees policy resolution roots = .error failure) :
    ∃ root ∈ roots, (registry.resolveTree root).2 = some failure := by
  induction roots generalizing resolution with
  | nil => cases h
  | cons root roots ih =>
    rw [resolveTrees_cons] at h
    split at h
    · rename_i found hfound
      cases h
      exact ⟨root, List.mem_cons_self, hfound⟩
    · obtain ⟨other, hother, hfailure⟩ := ih h
      exact ⟨other, List.mem_cons_of_mem _ hother, hfailure⟩

/-- Whatever tree stays deferred, its failure names the primitive that is to blame: the chain leads from that primitive to the
root by way of parents, each primitive on it but the first is deferred because of the one before it, which is the first of its
children that is still deferred, and the reason is the one that is recorded for the first of them, which blames no child. A
valid registry is resolved unless the failure of one of its trees is told. -/
theorem resolve_failure_names_culprit (hvalid : registry.validate = .ok ()) :
    (∀ root ∈ registry.roots, (registry.resolveTree root).1.isDeferred root.id = true →
      ∃ id chain reason, (registry.resolveTree root).2 = some (.unresolvable id chain reason) ∧
        registry.Blames (registry.resolveTree root).1 root.id id chain reason) ∧
    ∀ config failure, registry.resolve config = .error failure →
      ∃ root ∈ registry.roots, ∃ id chain reason, failure = .unresolvable id chain reason ∧
        registry.Blames (registry.resolveTree root).1 root.id id chain reason := by
  have hforest := (wellFormed_of_validate hvalid).forest
  constructor
  · intro root hroot hdeferred
    have htop : root.id ∈ (registry.tree root).ids := by
      have hin := Tree.top_mem_ids (registry.tree root)
      rwa [tree_top] at hin
    rw [hforest.isDeferred_resolveTree hroot htop, Option.isNone_iff_eq_none] at hdeferred
    exact hforest.exists_failure hroot hdeferred
  · intro config failure hresolve
    rw [resolve, hvalid] at hresolve
    obtain ⟨root, hroot, hfailure⟩ := exists_root_of_resolveTrees_eq_error hresolve
    have hdeferred : (registry.visitTree root).2.rendered? root.id = none := by
      cases hrendered : (registry.visitTree root).2.rendered? root.id with
      | none => rfl
      | some rendered =>
        rw [failure?_resolveTree, hrendered] at hfailure
        cases hfailure
    obtain ⟨id, chain, reason, htold, hblames⟩ := hforest.exists_failure hroot hdeferred
    exact ⟨root, hroot, id, chain, reason, Option.some.inj (hfailure.symm.trans htold), hblames⟩

/-- The page fails because of the greeting, two steps further down. -/
theorem namelessPage_blames_greeting : namelessPage.validate = .ok () ∧
    namelessPage.resolve {} =
      .error (.unresolvable "greeting" ["greeting", "box", "page"] (.missingBinding "children" "name")) ∧
    ∃ root ∈ namelessPage.roots, (namelessPage.resolveTree root).1.isDeferred root.id = true ∧
      (∃ id chain reason, (namelessPage.resolveTree root).2 = some (.unresolvable id chain reason)) ∧
      namelessPage.Blames (namelessPage.resolveTree root).1 root.id "greeting" ["greeting", "box", "page"]
        (.missingBinding "children" "name") := by
  have hvalid : namelessPage.validate = .ok () := by rfl
  have hresolve : namelessPage.resolve {} =
      .error (.unresolvable "greeting" ["greeting", "box", "page"] (.missingBinding "children" "name")) := by rfl
  have hdeferred : ∀ root ∈ namelessPage.roots, (namelessPage.resolveTree root).1.isDeferred root.id = true := by
    decide
  obtain ⟨htrees, htold⟩ := resolve_failure_names_culprit hvalid
  obtain ⟨root, hroot, id, chain, reason, heq, hblames⟩ := htold {} _ hresolve
  cases heq
  obtain ⟨id, chain, reason, hfailure, -⟩ := htrees root hroot (hdeferred root hroot)
  exact ⟨hvalid, hresolve, root, hroot, hdeferred root hroot, ⟨id, chain, reason, hfailure⟩, hblames⟩

end Registry

end Prebake
