import Mathlib.Algebra.GroupWithZero.Nat
import Prebake.Proofs.Progress.Visit
import Prebake.Proofs.Registry.Partition
import Prebake.Resolution

/-!
# What resolution puts together

The trees of a valid registry have no primitive in common, and each of them is visited from nothing. Whatever the policy,
a resolution that succeeds holds what the visits found (`resolve_eq_ok`), and it tells of a primitive what the visit of
its tree tells (`find?_states_resolution`).
-/

namespace Prebake

open Relation

/-- Whether a primitive is deferred. -/
def Resolution.isDeferred (resolution : Resolution) (id : String) : Bool :=
  (resolution.state? id).any fun state => !state.isResolved

namespace Registry

variable {registry : Registry} {config : Config} {result : Resolution} {root : Primitive} {id : String}

/-! ## The trees together -/

/-- The visit of the tree below a root does what `Visited` says. -/
theorem IsForest.visited_visitTree (hforest : registry.IsForest) (hroot : root ∈ registry.roots) :
    Progress.Visited (registry.visitTree root).2 Progress.empty (registry.tree root) (registry.visitTree root).1 :=
  Progress.visited_visit hforest (hforest.grown_tree hroot) Progress.empty fun _ _ => Progress.SameAt.refl _ _

/-- The resolution with the trees below some roots added, whether or not their roots are deferred. -/
def addTrees (registry : Registry) (resolution : Resolution) (roots : List Primitive) : Resolution :=
  roots.foldl (fun resolution root => resolution.add (registry.resolveTree root).1) resolution

/-- The first tree is resolved before the others, and its failure ends the build if the policy says so. -/
theorem resolveTrees_cons (registry : Registry) (policy : Policy) (resolution : Resolution) (root : Primitive)
    (roots : List Primitive) : registry.resolveTrees policy resolution (root :: roots) =
      match (registry.resolveTree root).2, policy with
      | some failure, .fail => .error failure
      | _, _ => registry.resolveTrees policy (resolution.add (registry.resolveTree root).1) roots := by
  rw [resolveTrees.eq_def]
  dsimp only
  rcases registry.resolveTree root with ⟨tree, _ | failure⟩ <;> cases policy <;> rfl

/-- If all trees are resolved, the result is what their visits found together. -/
theorem addTrees_of_resolveTrees {policy : Policy} {roots : List Primitive} {resolution : Resolution}
    (h : registry.resolveTrees policy resolution roots = .ok result) :
    result = registry.addTrees resolution roots := by
  induction roots generalizing resolution with
  | nil =>
    cases h
    rfl
  | cons root roots ih =>
    rw [resolveTrees_cons] at h
    split at h
    · cases h
    · exact ih h

/-- Trees that may stay deferred are all resolved. -/
theorem resolveTrees_deferToServe (registry : Registry) (resolution : Resolution) (roots : List Primitive) :
    registry.resolveTrees .deferToServe resolution roots = .ok (registry.addTrees resolution roots) := by
  induction roots generalizing resolution with
  | nil => rfl
  | cons root roots ih =>
    rw [resolveTrees_cons]
    cases (registry.resolveTree root).2 <;> exact ih _

/-- A registry is resolved only if it is valid, and then the resolution is made of the visits of all trees. -/
theorem resolve_eq_ok (h : registry.resolve config = .ok result) :
    registry.validate = .ok () ∧ result = registry.addTrees Resolution.empty registry.roots := by
  obtain ⟨_, hvalid, htrees⟩ := bind_eq_ok_iff.1 h
  exact ⟨hvalid, addTrees_of_resolveTrees htrees⟩

/-- A valid registry is always resolved if what is deferred may be left to serve time. -/
theorem resolve_deferToServe (hvalid : registry.validate = .ok ()) (hpolicy : config.onUnresolvable = .deferToServe) :
    registry.resolve config = .ok (registry.addTrees Resolution.empty registry.roots) := by
  rw [resolve, hvalid, hpolicy]
  exact registry.resolveTrees_deferToServe _ _

/-- The states of all trees are those of one after the other. -/
theorem states_addTrees (registry : Registry) (resolution : Resolution) (roots : List Primitive) :
    (registry.addTrees resolution roots).states = roots.foldl
      (fun states root => states.union ((registry.visitTree root).2.attempts.mapValues Attempt.state))
      resolution.states := by
  induction roots generalizing resolution with
  | nil => rfl
  | cons root roots ih => exact ih _

/-- The numbers of attempts in all trees are those of one after the other. -/
theorem evaluations_addTrees (registry : Registry) (resolution : Resolution) (roots : List Primitive) :
    (registry.addTrees resolution roots).evaluations = roots.foldl
      (fun evaluations root => evaluations.union (registry.visitTree root).2.evaluations) resolution.evaluations := by
  induction roots generalizing resolution with
  | nil => rfl
  | cons root roots ih => exact ih _

/-- There is one tree for each root, with the markup that the visit has found for it. -/
theorem trees_addTrees (registry : Registry) (resolution : Resolution) (roots : List Primitive) :
    (registry.addTrees resolution roots).trees =
      resolution.trees ++ roots.map fun root => ⟨root.id, (registry.visitTree root).2.rendered? root.id⟩ := by
  induction roots generalizing resolution with
  | nil => exact (List.append_nil _).symm
  | cons root roots ih =>
    refine (ih _).trans ?_
    rw [List.map_cons, ← List.singleton_append, ← List.append_assoc]
    rfl

/-- The statistics of all trees are added up. -/
theorem stats_addTrees (registry : Registry) (resolution : Resolution) (roots : List Primitive) :
    (registry.addTrees resolution roots).stats =
      roots.foldl (fun stats root => stats.add (registry.resolveTree root).1.stats) resolution.stats := by
  induction roots generalizing resolution with
  | nil => rfl
  | cons root roots ih => exact ih _

/-- What is counted separately in each tree adds up. -/
theorem count_addTrees (count : Stats → Nat) (hcount : ∀ a b, count (a.add b) = count a + count b) (registry : Registry)
    (resolution : Resolution) (roots : List Primitive) : count (registry.addTrees resolution roots).stats =
      count resolution.stats + (roots.map fun root => count (registry.resolveTree root).1.stats).sum := by
  induction roots generalizing resolution with
  | nil => rfl
  | cons root roots ih =>
    refine (ih _).trans ?_
    rw [List.map_cons, List.sum_cons, ← Nat.add_assoc, ← hcount]
    rfl

/-! ## What is told of a primitive -/

/-- What the resolution of a tree tells of a primitive is what the visit found. -/
theorem state?_resolveTree (registry : Registry) (root : Primitive) (id : String) :
    (registry.resolveTree root).1.state? id = ((registry.visitTree root).2.attempts.find? id).map Attempt.state :=
  NameMap.find?_mapValues _ _

/-- If there is a table for each tree that tells nothing of what is not in the tree, all of them together tell of a primitive
what the table of its tree tells. -/
theorem IsForest.find?_foldl_union {α : Type} {tables : Primitive → NameMap α} {value : α} (hforest : registry.IsForest)
    (htables : ∀ root ∈ registry.roots, ∀ id ∉ (registry.tree root).ids, (tables root).find? id = none)
    (hroot : root ∈ registry.roots) (hvalue : (tables root).find? id = some value) (first : NameMap α) :
    (registry.roots.foldl (fun table root => table.union (tables root)) first).find? id = some value := by
  refine NameMap.find?_foldl_union_of_mem hroot hvalue ?_ first
  have hapart := hforest.pairwise_ids
  rw [List.flatMap_map, List.pairwise_flatMap] at hapart
  refine hapart.2.imp_of_mem fun {a b} ha hb hab => ?_
  by_cases hin : id ∈ (registry.tree a).ids
  · exact Or.inr (htables b hb id fun hin' => hab id hin id hin' ReflTransGen.refl)
  · exact Or.inl (htables a ha id hin)

/-- What the visits of all trees found. -/
def attempts (registry : Registry) : NameMap Attempt :=
  registry.roots.foldl (fun attempts root => attempts.union (registry.visitTree root).2.attempts) NameMap.empty

/-- A resolution tells of each primitive the state after the latest attempt for it. -/
theorem states_eq_mapValues_attempts (registry : Registry) :
    (registry.addTrees Resolution.empty registry.roots).states = registry.attempts.mapValues Attempt.state := by
  rw [states_addTrees, attempts]
  show List.foldl _ NameMap.empty _ = _
  have hempty : (NameMap.empty : NameMap State) = NameMap.empty.mapValues Attempt.state := rfl
  rw [hempty]
  generalize (NameMap.empty : NameMap Attempt) = first
  induction registry.roots generalizing first with
  | nil => rfl
  | cons root roots ih => rw [List.foldl_cons, List.foldl_cons, ← NameMap.mapValues_union, ih]

/-- A primitive of a tree was attempted in the visit of that tree. -/
theorem IsForest.isSome_find?_attempts (hforest : registry.IsForest) (hroot : root ∈ registry.roots)
    (hid : id ∈ (registry.tree root).ids) : ((registry.visitTree root).2.attempts.find? id).isSome :=
  (hforest.visited_visitTree hroot).isSome_find?_attempts hid

/-- A primitive of a tree is deferred exactly if the visit found no markup for it. -/
theorem IsForest.isDeferred_resolveTree (hforest : registry.IsForest) (hroot : root ∈ registry.roots)
    (hid : id ∈ (registry.tree root).ids) :
    (registry.resolveTree root).1.isDeferred id = ((registry.visitTree root).2.rendered? id).isNone := by
  obtain ⟨attempt, hattempt⟩ := Option.isSome_iff_exists.1 (hforest.isSome_find?_attempts hroot hid)
  rw [Resolution.isDeferred, state?_resolveTree, Progress.rendered?, hattempt]
  cases attempt <;> rfl

/-- A visit finds nothing about what is not in its tree. -/
theorem IsForest.sameAt_visitTree (hforest : registry.IsForest) (hroot : root ∈ registry.roots)
    (hid : id ∉ (registry.tree root).ids) : Progress.SameAt (registry.visitTree root).2 Progress.empty id :=
  (hforest.visited_visitTree hroot).others id hid

/-- What is told of a primitive is what the visit of its tree found. -/
theorem IsForest.find?_attempts (hforest : registry.IsForest) (hroot : root ∈ registry.roots)
    (hid : id ∈ (registry.tree root).ids) :
    registry.attempts.find? id = (registry.visitTree root).2.attempts.find? id := by
  obtain ⟨attempt, hattempt⟩ := Option.isSome_iff_exists.1 (hforest.isSome_find?_attempts hroot hid)
  rw [hattempt]
  exact hforest.find?_foldl_union (fun root hroot id hid => (hforest.sameAt_visitTree hroot hid).attempt) hroot hattempt _

/-- It is told of a primitive what the resolution of its tree tells. -/
theorem IsForest.state?_addTrees (hforest : registry.IsForest) (hroot : root ∈ registry.roots)
    (hid : id ∈ (registry.tree root).ids) :
    (registry.addTrees Resolution.empty registry.roots).state? id = (registry.resolveTree root).1.state? id := by
  rw [Resolution.state?, states_eq_mapValues_attempts, NameMap.find?_mapValues, hforest.find?_attempts hroot hid,
    state?_resolveTree]

/-- A primitive was attempted as often as in the visit of its tree. -/
theorem IsForest.evaluationsOf_addTrees (hforest : registry.IsForest) (hroot : root ∈ registry.roots)
    (hid : id ∈ (registry.tree root).ids) :
    (registry.addTrees Resolution.empty registry.roots).evaluationsOf id = (registry.visitTree root).2.evaluationsOf id := by
  obtain ⟨p, way, hp, rfl⟩ := Tree.exists_mem_places [] hid
  have hevaluated := ((hforest.visited_visitTree hroot).settled p way hp).evaluated
  unfold Resolution.evaluationsOf
  unfold Progress.evaluationsOf at hevaluated ⊢
  cases hcount : (registry.visitTree root).2.evaluations.find? p.id with
  | none =>
    rw [hcount] at hevaluated
    exact absurd hevaluated (by decide)
  | some count =>
    have htogether := hforest.find?_foldl_union (fun root hroot id hid => (hforest.sameAt_visitTree hroot hid).evaluations)
      hroot hcount Resolution.empty.evaluations
    rw [evaluations_addTrees, htogether]

/-- There are no attempts for what is in no tree. -/
theorem IsForest.find?_attempts_of_forall_not_mem (hforest : registry.IsForest)
    (hid : ∀ root ∈ registry.roots, id ∉ (registry.tree root).ids) : registry.attempts.find? id = none :=
  NameMap.find?_foldl_union_of_forall_none
    (fun root hroot => (hforest.sameAt_visitTree hroot (hid root hroot)).attempt) NameMap.empty

end Registry

/-- A page with a title that is bound in the page, to what the server fills in: the title is not rendered in its own layer,
but one layer further out. A label of the page looks like a marker. -/
def titledPage : Registry where
  route? := some "/"
  primitives := [
    (((Primitive.new "page" "main").withChildren ["title"]).withProp "label"
      (.literal (.string "__RUXY_SV_X__"))).withBinding "name" (.slot "site name"),
    ((Primitive.new "title" "h1").withParent "page").withProp "children" (.expression "name")]
  nodup := by decide

/-- Two trees. In the first one a title waits for a binding of the page, and an element without an end tag stands beside it;
in both of them literal text holds characters that mean something in markup. -/
def gallery : Registry where
  route? := some "/gallery"
  primitives := [
    (((Primitive.new "page" "main").withChildren ["rule", "title"]).withProp "label"
      (.literal (.string "<\"a\">"))).withBinding "name" (.slot "siteName"),
    ((Primitive.new "title" "h1").withParent "page").withProp "children" (.expression "name"),
    (Primitive.new "foot" "footer").withProp "text" (.literal (.string "</footer>")),
    ((Primitive.new "rule" "hr").withParent "page").withProp "hidden" (.literal (.bool true))]
  nodup := by decide

/-- A page that cannot be rendered because a greeting in a box needs a name that nothing binds. The title beside it is rendered
when the visit comes to the page; until then it is the reason for which the box is deferred. -/
def namelessPage : Registry where
  route? := some "/welcome"
  primitives := [
    ((Primitive.new "page" "main").withChildren ["box"]).withBinding "site" (.literal (.string "Prebake")),
    ((Primitive.new "box" "div").withParent "page").withChildren ["title", "greeting", "hint"],
    ((Primitive.new "title" "h1").withParent "box").withProp "children" (.expression "site"),
    ((Primitive.new "greeting" "p").withParent "box").withProp "children" (.expression "name"),
    ((Primitive.new "hint" "p").withParent "box").withProp "children" (.expression "hint()")]
  nodup := by decide

namespace Registry

theorem resolve_gallery : gallery.resolve (Config.withPolicy {} .deferToServe) =
    .ok (gallery.addTrees Resolution.empty gallery.roots) :=
  resolve_deferToServe (by rfl) rfl

/-- The page of the gallery has its title from the binding that it gives. -/
theorem state?_gallery_page : (gallery.addTrees Resolution.empty gallery.roots).state? "page" = some (.resolved
    "<main label=\"&lt;&quot;a&quot;&gt;\"><hr hidden /><h1>__RUXY_SV_siteName__</h1></main>") := by
  decide +kernel

end Registry

end Prebake
