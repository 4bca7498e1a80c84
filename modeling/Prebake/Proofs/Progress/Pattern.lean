import Prebake.Proofs.Registry.Renaming
import Prebake.Proofs.Template
import Prebake.Resolution

/-!
# The pattern of a visit

A visit takes the same course whatever the slots are called: the same primitives are attempted in the same order and in the
same scopes, and each attempt fails for the same reason or fills the same template. What is known of a tree with unnamed slots
is a `Progress.Pattern`, and each step of a visit leads from the filled pattern to a filled pattern, for all names at once.
-/

namespace Prebake

theorem NameMap.mapValues_insert {α β : Type} (g : α → β) (map : NameMap α) (name : String) (value : α) :
    (map.insert name value).mapValues g = (map.mapValues g).insert name (g value) := by
  refine ext_find? fun other => ?_
  rw [find?_mapValues, find?_insert, find?_insert, find?_mapValues]
  split <;> rfl

theorem Scope.depth_renameSlots {f : String → String} (scope : Scope) : (scope.renameSlots f).depth = scope.depth :=
  List.length_map ..

namespace Progress

/-- What is known of a tree while it is visited, before its slots have names. -/
structure Pattern where
  attempts : NameMap (Except Reason Template)
  evaluations : NameMap Nat
  distances : NameMap Nat
  deferrals : Nat

namespace Pattern

variable {f : String → String} {registry : Registry}

/-- Nothing visited yet. -/
def empty : Pattern := ⟨NameMap.empty, NameMap.empty, NameMap.empty, 0⟩

/-- What is known once the slots have names. -/
def filled (f : String → String) (pattern : Pattern) : Progress where
  attempts := pattern.attempts.mapValues (Except.map (Template.rendered f))
  evaluations := pattern.evaluations
  distances := pattern.distances
  deferrals := pattern.deferrals

/-- The template of a primitive, if it has been rendered. -/
def template? (pattern : Pattern) (id : String) : Option Template :=
  match pattern.attempts.find? id with
  | some (.ok template) => some template
  | _ => none

/-- The reason for which a primitive is deferred. -/
def reason? (pattern : Pattern) (id : String) : Option Reason :=
  match pattern.attempts.find? id with
  | some (.error reason) => some reason
  | _ => none

/-- What is known to be rendered is a filled template. -/
theorem rendered?_filled (pattern : Pattern) (id : String) :
    (pattern.filled f).rendered? id = (pattern.template? id).map (Template.rendered f) := by
  unfold Progress.rendered? template? filled
  rw [NameMap.find?_mapValues]
  rcases pattern.attempts.find? id with _ | (_ | _) <;> rfl

/-- Whether a primitive is rendered does not depend on names of slots. -/
theorem isSome_rendered?_filled (pattern : Pattern) (id : String) :
    ((pattern.filled f).rendered? id).isSome = (pattern.template? id).isSome := by
  rw [rendered?_filled, Option.isSome_map]

/-- The reason for which a primitive is deferred does not depend on names of slots. -/
theorem reason?_filled (pattern : Pattern) (id : String) : (pattern.filled f).reason? id = pattern.reason? id := by
  unfold Progress.reason? reason? filled
  rw [NameMap.find?_mapValues]
  rcases pattern.attempts.find? id with _ | (_ | _) <;> rfl

/-! ## Single steps -/

/-- One more attempt leads to one pattern. -/
theorem exists_evaluate (pattern : Pattern) (p : Primitive) (scope : Scope) :
    ∃ next : Pattern, ∀ f, (pattern.filled f).evaluate (p.renameSlots f) (scope.renameSlots f) = next.filled f := by
  obtain ⟨outcome, houtcome⟩ := p.exists_attempt scope (p.children.map pattern.template?)
  have hattempt : ∀ f, (pattern.filled f).outcome (p.renameSlots f) (scope.renameSlots f) =
      outcome.map (Template.rendered f) := by
    intro f
    have hchildren : p.children.map (pattern.filled f).rendered? =
        (p.children.map pattern.template?).map (Option.map (Template.rendered f)) := by
      rw [List.map_map]
      exact List.map_congr_left fun id _ => pattern.rendered?_filled id
    rw [← houtcome f, ← hchildren]
    rfl
  refine ⟨{ pattern with
    attempts := pattern.attempts.insert p.id outcome
    evaluations := pattern.evaluations.insert p.id ((pattern.evaluations.find? p.id).getD 0 + 1) }, fun f => ?_⟩
  rw [Progress.evaluate, hattempt, filled, filled, NameMap.mapValues_insert]
  rfl

/-- A retry leads from a filled pattern to a filled pattern. -/
theorem exists_retry (registry : Registry) (ancestor : String) (pattern : Pattern) (id : String) :
    ∃ next : Pattern, ∀ f, (pattern.filled f).retry (registry.renameSlots f) ancestor id = next.filled f := by
  cases hfound : registry.find? id with
  | none =>
    refine ⟨pattern, fun f => ?_⟩
    rw [retry, Registry.find?_renameSlots, hfound]
    rfl
  | some p =>
    have hretry : ∀ f, (pattern.filled f).retry (registry.renameSlots f) ancestor id =
        if (pattern.reason? id).any fun reason => !reason.isRetryable then pattern.filled f
        else
          let scope := registry.scopeUpTo p ancestor
          let next := (pattern.filled f).evaluate (p.renameSlots f) (scope.renameSlots f)
          if (next.rendered? id).isSome then { next with distances := next.distances.insert id (scope.depth - 1) }
          else next := by
      intro f
      simp only [retry, Registry.find?_renameSlots, hfound, Option.map_some, reason?_filled,
        Registry.scopeUpTo_renameSlots, Scope.depth_renameSlots]
    cases hclosed : (pattern.reason? id).any fun reason => !reason.isRetryable with
    | true =>
      -- no scope can help, and this is so for all names
      refine ⟨pattern, fun f => ?_⟩
      rw [hretry, hclosed]
      rfl
    | false =>
      obtain ⟨next, hnext⟩ := pattern.exists_evaluate p (registry.scopeUpTo p ancestor)
      cases hrendered : (next.template? id).isSome with
      | true =>
        refine ⟨{ next with
          distances := next.distances.insert id ((registry.scopeUpTo p ancestor).depth - 1) }, fun f => ?_⟩
        rw [hretry, hclosed]
        simp only [hnext, isSome_rendered?_filled, hrendered]
        rfl
      | false =>
        refine ⟨next, fun f => ?_⟩
        rw [hretry, hclosed]
        simp only [hnext, isSome_rendered?_filled, hrendered]
        rfl

/-- Retries lead from a filled pattern to a filled pattern and leave the same primitives pending, for all names. -/
theorem exists_retryAll (registry : Registry) (ancestor : String) (pattern : Pattern) (pending : List String) :
    ∃ (deferred : List String) (next : Pattern), ∀ f,
      (pattern.filled f).retryAll (registry.renameSlots f) ancestor pending = (deferred, next.filled f) := by
  induction pending generalizing pattern with
  | nil => exact ⟨[], pattern, fun _ => rfl⟩
  | cons id pending ih =>
    obtain ⟨middle, hmiddle⟩ := exists_retry registry ancestor pattern id
    obtain ⟨deferred, next, hrest⟩ := ih middle
    refine ⟨if (middle.template? id).isSome then deferred else id :: deferred, next, fun f => ?_⟩
    rw [retryAll]
    simp only [hmiddle, hrest, isSome_rendered?_filled]

/-- The first attempt for a primitive leads from a filled pattern to a filled pattern. -/
theorem exists_begin (pattern : Pattern) (p : Primitive) :
    ∃ next : Pattern, ∀ f, (pattern.filled f).begin (p.renameSlots f) = next.filled f := by
  obtain ⟨next, hnext⟩ := pattern.exists_evaluate p [p.layer]
  have hbegin : ∀ f, (pattern.filled f).begin (p.renameSlots f) =
      if (next.template? p.id).isSome then next.filled f
      else { next.filled f with deferrals := next.deferrals + 1 } := by
    intro f
    have hfirst : (pattern.filled f).evaluate (p.renameSlots f) [(p.renameSlots f).layer] = next.filled f := hnext f
    rw [begin]
    simp only [hfirst, ← isSome_rendered?_filled (f := f)]
    rfl
  cases hrendered : (next.template? p.id).isSome with
  | true =>
    refine ⟨next, fun f => ?_⟩
    rw [hbegin, hrendered]
    rfl
  | false =>
    refine ⟨{ next with deferrals := next.deferrals + 1 }, fun f => ?_⟩
    rw [hbegin, hrendered]
    rfl

/-! ## Visits -/

/-- If the visits of the trees below a primitive lead to one pattern, so does the visit of the tree of the primitive. -/
theorem exists_visit_node (registry : Registry) (p : Primitive) (pattern : Pattern) {trees : (String → String) → List Tree}
    (hbelow : ∃ (below : List String) (middle : Pattern), ∀ f,
      (pattern.filled f).visitAll (registry.renameSlots f) (trees f) = (below, middle.filled f)) :
    ∃ (pending : List String) (next : Pattern), ∀ f,
      (pattern.filled f).visit (registry.renameSlots f) (.node (p.renameSlots f) (trees f)) = (pending, next.filled f) := by
  obtain ⟨below, middle, hbelow⟩ := hbelow
  obtain ⟨deferred, last, hretried⟩ := exists_retryAll registry p.id middle below
  obtain ⟨next, hbegin⟩ := last.exists_begin p
  refine ⟨if (next.template? p.id).isSome then deferred else deferred ++ [p.id], next, fun f => ?_⟩
  have hid : (p.renameSlots f).id = p.id := rfl
  rw [visit]
  simp only [hbelow, hid, hretried, hbegin, isSome_rendered?_filled]

/-- If the visits of the trees below single primitives lead to one pattern, so do the visits of several, one after the other. -/
theorem exists_visitAll (registry : Registry) {depth : Nat}
    (hvisit : ∀ (p : Primitive) (pattern : Pattern), ∃ (pending : List String) (next : Pattern), ∀ f,
      (pattern.filled f).visit (registry.renameSlots f) ((registry.renameSlots f).treeBelow depth (p.renameSlots f)) =
        (pending, next.filled f)) (children : List Primitive) (pattern : Pattern) :
    ∃ (below : List String) (middle : Pattern), ∀ f, (pattern.filled f).visitAll (registry.renameSlots f)
      (children.map fun c => (registry.renameSlots f).treeBelow depth (c.renameSlots f)) = (below, middle.filled f) := by
  induction children generalizing pattern with
  | nil => exact ⟨[], pattern, fun _ => rfl⟩
  | cons c children ih =>
    obtain ⟨first, middle, hfirst⟩ := hvisit c pattern
    obtain ⟨others, last, hrest⟩ := ih middle
    refine ⟨first ++ others, last, fun f => ?_⟩
    rw [List.map_cons, visitAll]
    simp only [hfirst, hrest]

/-- The visit of the tree below a primitive leads to one pattern, and leaves the same primitives pending. -/
theorem exists_visit (registry : Registry) (depth : Nat) (p : Primitive) (pattern : Pattern) :
    ∃ (pending : List String) (next : Pattern), ∀ f, (pattern.filled f).visit (registry.renameSlots f)
      ((registry.renameSlots f).treeBelow depth (p.renameSlots f)) = (pending, next.filled f) := by
  induction depth generalizing p pattern with
  | zero => exact exists_visit_node registry p pattern ⟨[], pattern, fun _ => rfl⟩
  | succ depth ih =>
    have hbelow := exists_visitAll registry ih (registry.childrenOf p) pattern
    obtain ⟨pending, next, hvisit⟩ := exists_visit_node registry p pattern hbelow
    refine ⟨pending, next, fun f => ?_⟩
    rw [← hvisit f, Registry.treeBelow, Registry.childrenOf_renameSlots, List.map_map]
    rfl

/-- The visit of a tree fills one pattern and leaves the same primitives pending, for all names. -/
theorem exists_visitTree (registry : Registry) (root : Primitive) : ∃ (pending : List String) (pattern : Pattern),
    ∀ f, (registry.renameSlots f).visitTree (root.renameSlots f) = (pending, pattern.filled f) := by
  obtain ⟨pending, next, hvisit⟩ := exists_visit registry registry.size root empty
  refine ⟨pending, next, fun f => ?_⟩
  rw [← hvisit f, Registry.visitTree, Registry.tree, Registry.size_renameSlots]
  rfl

end Pattern

end Progress

end Prebake
