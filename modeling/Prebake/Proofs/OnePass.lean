import Prebake.Proofs.Resolution

/-!
# Rendering in one pass

The plainest way to render a tree is to attempt each primitive once, after its children and in the scope of everything
above it. A visit takes another way: it attempts a primitive in a narrow scope first, comes back to it, and gives some
primitives up for good. What it finds is the same (`resolve_states_eq_renderOnce`), unless some binding declares a name
that has a value without being bound.
-/

namespace Prebake

/-- The markup that an attempt gave. -/
def Attempt.markup? : Attempt → Option Rendered
  | .ok rendered => some rendered
  | .error _ => none

namespace Tree

mutual

/-- Renders a tree in one pass and adds what is found to what is known. Each primitive is attempted once, in the scope of
all primitives above it and with the markup that its children turned out to have; `outer` is the scope above the tree. -/
def renderOnce (outer : Scope) (known : NameMap Attempt) : Tree → NameMap Attempt
  | node p children =>
    let scope := p.layer :: outer
    let known := renderAllOnce scope known children
    known.insert p.id (p.attempt (p.children.map fun child => (known.find? child).bind Attempt.markup?) scope)

/-- Renders trees one after the other. -/
def renderAllOnce (outer : Scope) (known : NameMap Attempt) : List Tree → NameMap Attempt
  | [] => known
  | tree :: trees => renderAllOnce outer (renderOnce outer known tree) trees

end

end Tree

/-- Renders all trees of a registry in one pass. -/
def Registry.renderOnce (registry : Registry) : NameMap Attempt :=
  Tree.renderAllOnce [] NameMap.empty (registry.roots.map registry.tree)

variable {registry : Registry} {known expected : NameMap Attempt} {p : Primitive} {scope : Scope} {id : String}

/-- What is known of a primitive is its attempt in a scope, with the markup that is known of its children. -/
def AttemptedIn (known : NameMap Attempt) (p : Primitive) (scope : Scope) : Prop :=
  known.find? p.id = some (p.attempt (p.children.map fun child => (known.find? child).bind Attempt.markup?) scope)

/-! ## What one pass finds -/

namespace Tree

/-- The attempts of several trees, if the attempts of each are known. -/
theorem find?_renderAllOnce {outer : Scope} {trees : List Tree}
    (htrees : ∀ tree ∈ trees, ∀ known id, (tree.renderOnce outer known).find? id =
      if id ∈ tree.ids then expected.find? id else known.find? id) (known : NameMap Attempt) (id : String) :
    (renderAllOnce outer known trees).find? id =
      if id ∈ trees.flatMap ids then expected.find? id else known.find? id := by
  induction trees generalizing known with
  | nil => rfl
  | cons tree trees ih =>
    rw [renderAllOnce, ih (fun other hother => htrees other (List.mem_cons_of_mem _ hother)),
      htrees tree List.mem_cons_self, List.flatMap_cons]
    by_cases hfirst : id ∈ tree.ids
    · simp [hfirst]
    · simp [hfirst]

/-- One pass over a whole tree finds the attempts in the scopes of all primitives above. -/
theorem Grown.find?_renderOnce {above : List Primitive} {tree : Tree} (h : Grown registry above tree)
    (hexpected : ∀ p way, (p, way) ∈ tree.places above → AttemptedIn expected p ((p :: way).map Primitive.layer))
    (known : NameMap Attempt) (id : String) : (tree.renderOnce (above.map Primitive.layer) known).find? id =
      if id ∈ tree.ids then expected.find? id else known.find? id := by
  induction h generalizing known id with
  | @node p above children hlineage hids hbelow ih =>
    simp only [places_node, List.mem_append, List.mem_flatMap, List.mem_singleton] at hexpected
    have hchildren := find?_renderAllOnce (fun tree htree known id => ih tree htree
      (fun q way hq => hexpected q way (Or.inl ⟨tree, htree, hq⟩)) known id) known
    rw [List.map_cons] at hchildren
    rw [renderOnce, ids_node]
    have hmarkup : ∀ child ∈ p.children,
        ((renderAllOnce (p.layer :: above.map Primitive.layer) known children).find? child).bind Attempt.markup? =
          (expected.find? child).bind Attempt.markup? := by
      intro child hchild
      rw [← hids, List.mem_map] at hchild
      obtain ⟨tree, htree, rfl⟩ := hchild
      rw [hchildren, if_pos (List.mem_flatMap.2 ⟨tree, htree, top_mem_ids tree⟩)]
    rw [List.map_congr_left hmarkup, NameMap.find?_insert, hchildren]
    have hp := hexpected p above (Or.inr rfl)
    rw [AttemptedIn, List.map_cons] at hp
    by_cases hsame : id = p.id
    · simp [hsame, hp]
    · simp [hsame]

end Tree

/-! ## What a visit finds -/

/-- What is known of a primitive is the markup of its latest attempt. -/
theorem Progress.rendered?_eq (progress : Progress) (id : String) :
    progress.rendered? id = (progress.attempts.find? id).bind Attempt.markup? := by
  unfold rendered?
  rcases progress.attempts.find? id with _ | (_ | _) <;> rfl

/-- What is found of a settled primitive is its attempt in the whole scope, also if it was found in a part of it. -/
theorem Progress.Settled.attemptedIn {progress : Progress} (h : progress.Settled p scope)
    (hspares : ∀ layer ∈ scope, layer.bindings.SparesPredefined)
    (hchildren : ∀ child ∈ p.children, progress.evaluationsOf child ≤ scope.length + 1) :
    AttemptedIn progress.attempts p scope := by
  rw [AttemptedIn, h.attempt]
  simp only [← rendered?_eq]
  refine congrArg some ?_
  cases hopen : (progress.trial p scope (progress.evaluationsOf p.id)).isOpen with
  | true => exact h.attempt_of_isOpen h.attempt hopen hchildren
  | false =>
    have htrial := trial_eq_of_not_isOpen hopen
    rw [htrial] at hopen ⊢
    have hspares' : ∀ layer ∈ scope.drop (progress.evaluationsOf p.id), layer.bindings.SparesPredefined :=
      fun layer hlayer => hspares layer (List.mem_of_mem_drop hlayer)
    have hwide := Primitive.attempt_append_of_not_isOpen hspares' hopen
    rw [List.take_append_drop] at hwide
    exact hwide.symm

namespace Registry

/-- What is told of a primitive is its attempt in the scope of all primitives above it. -/
theorem IsForest.attemptedIn (hforest : registry.IsForest)
    (hspares : ∀ p ∈ registry.primitives, p.bindings.SparesPredefined) {root : Primitive}
    (hroot : root ∈ registry.roots) {way : List Primitive} (hp : (p, way) ∈ (registry.tree root).places []) :
    AttemptedIn registry.attempts p ((p :: way).map Primitive.layer) := by
  have hvisited := hforest.visited_visitTree hroot
  have hgrown := hforest.grown_tree hroot
  have hlineage := hgrown.lineage_of_mem_places hp
  have hattempted : AttemptedIn (registry.visitTree root).2.attempts p ((p :: way).map Primitive.layer) := by
    refine (hvisited.settled p way hp).attemptedIn ?_ fun child => hvisited.evaluationsOf_child_le hgrown hp
    intro layer hlayer
    obtain ⟨q, hq, rfl⟩ := List.mem_map.1 hlayer
    exact hspares q (hlineage.registered q hq)
  rw [AttemptedIn] at hattempted ⊢
  rw [hforest.find?_attempts hroot (Tree.mem_ids_of_mem_places hp), hattempted]
  refine congrArg some (congrArg (p.attempt · _) (List.map_congr_left fun child hchild => ?_))
  rw [hforest.find?_attempts hroot (hgrown.child_mem_ids hp hchild)]

/-- The visits of all trees find what one pass finds. -/
theorem IsForest.attempts_eq_renderOnce (hforest : registry.IsForest)
    (hspares : ∀ p ∈ registry.primitives, p.bindings.SparesPredefined) :
    registry.attempts = registry.renderOnce := by
  refine NameMap.ext_find? fun id => ?_
  have htrees : ∀ tree ∈ registry.roots.map registry.tree, ∀ known id, (tree.renderOnce [] known).find? id =
      if id ∈ tree.ids then registry.attempts.find? id else known.find? id := by
    intro tree htree known id
    obtain ⟨root, hroot, rfl⟩ := List.mem_map.1 htree
    exact (hforest.grown_tree hroot).find?_renderOnce (fun p way hp => hforest.attemptedIn hspares hroot hp) known id
  rw [renderOnce, Tree.find?_renderAllOnce htrees]
  split
  · rfl
  · rename_i hid
    refine hforest.find?_attempts_of_forall_not_mem fun root hroot hin => hid ?_
    exact List.mem_flatMap.2 ⟨registry.tree root, List.mem_map_of_mem hroot, hin⟩

/-- Resolution leaves every primitive as one pass leaves it: with the markup that it has in its whole scope, or deferred
for the reason for which it has none there. Neither early attempts in narrow scopes nor the order in which primitives are
retried nor giving up on some of them changes the outcome. -/
theorem resolve_states_eq_renderOnce {config : Config} (hvalid : registry.validate = .ok ())
    (hspares : ∀ p ∈ registry.primitives, p.bindings.SparesPredefined)
    (hpolicy : config.onUnresolvable = .deferToServe) :
    ∃ resolution, registry.resolve config = .ok resolution ∧
      resolution.states = registry.renderOnce.mapValues Attempt.state := by
  have hforest := (wellFormed_of_validate hvalid).forest
  refine ⟨_, resolve_deferToServe hvalid hpolicy, ?_⟩
  rw [states_eq_mapValues_attempts, hforest.attempts_eq_renderOnce hspares]

/-- The title waits for the page in a visit, and it has its binding at once in a single pass. -/
theorem titledPage_states_eq_renderOnce :
    titledPage.validate = .ok () ∧ (∀ p ∈ titledPage.primitives, p.bindings.SparesPredefined) ∧
      ∃ resolution, titledPage.resolve (Config.withPolicy {} .deferToServe) = .ok resolution ∧
        resolution.states = titledPage.renderOnce.mapValues Attempt.state := by
  have hvalid : titledPage.validate = .ok () := by rfl
  have hspares : ∀ p ∈ titledPage.primitives, p.bindings.SparesPredefined := by
    intro p hp name hname
    revert p name
    decide
  exact ⟨hvalid, hspares, resolve_states_eq_renderOnce hvalid hspares rfl⟩

end Registry

end Prebake
