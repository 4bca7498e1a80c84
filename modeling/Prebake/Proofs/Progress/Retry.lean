import Prebake.Proofs.NameMap
import Prebake.Proofs.Registry.Forest
import Prebake.Progress

/-!
# What retrying changes

One step of a visit attempts at most one primitive, and changes what is known of no other (`SameAt`). When the visit
comes to an ancestor of pending primitives, each of them that some scope can still help is attempted once more, in the
scope that reaches up to the ancestor, and with the markup that its children have in the end: the pending primitives are
in the order of the visit, so no child is retried after its parent (`retried_retryAll`).
-/

namespace Prebake

namespace Progress

open Relation

variable {registry : Registry} {progress before after : Progress} {p : Primitive} {id other ancestor : String}

/-- How often a primitive was attempted. -/
def evaluationsOf (progress : Progress) (id : String) : Nat := (progress.evaluations.find? id).getD 0

/-- Whether a primitive is deferred for a reason that no scope removes. -/
def isClosed (progress : Progress) (id : String) : Bool := (progress.reason? id).any fun reason => !reason.isRetryable

/-- The same is known of an id. -/
structure SameAt (after before : Progress) (id : String) : Prop where
  attempt : after.attempts.find? id = before.attempts.find? id
  evaluations : after.evaluations.find? id = before.evaluations.find? id
  distance : after.distances.find? id = before.distances.find? id

namespace SameAt

theorem refl (progress : Progress) (id : String) : SameAt progress progress id := ⟨rfl, rfl, rfl⟩

theorem trans {last : Progress} (h : SameAt last after id) (h' : SameAt after before id) : SameAt last before id :=
  ⟨h.attempt.trans h'.attempt, h.evaluations.trans h'.evaluations, h.distance.trans h'.distance⟩

theorem rendered? (h : SameAt after before id) : after.rendered? id = before.rendered? id := by
  rw [Progress.rendered?, Progress.rendered?, h.attempt]

theorem evaluationsOf (h : SameAt after before id) : after.evaluationsOf id = before.evaluationsOf id := by
  rw [Progress.evaluationsOf, Progress.evaluationsOf, h.evaluations]

theorem isClosed (h : SameAt after before id) : after.isClosed id = before.isClosed id := by
  rw [Progress.isClosed, Progress.isClosed, reason?, reason?, h.attempt]

end SameAt

/-- An attempt depends on nothing but the markup of the children. -/
theorem outcome_congr {scope : Scope} (h : ∀ child ∈ p.children, after.rendered? child = before.rendered? child) :
    after.outcome p scope = before.outcome p scope := by
  rw [outcome, outcome, List.map_congr_left h]

/-! ## One more attempt -/

/-- A primitive was attempted once more, in a scope and with the markup that its children have in the end. -/
structure AttemptedAgain (after before : Progress) (p : Primitive) (scope : Scope) : Prop where
  attempt : after.attempts.find? p.id = some (after.outcome p scope)
  evaluations : after.evaluationsOf p.id = before.evaluationsOf p.id + 1
  distance : after.distances.find? p.id =
    if (after.rendered? p.id).isSome then some (scope.depth - 1) else before.distances.find? p.id

namespace AttemptedAgain

variable {scope : Scope}

/-- Nothing changes if neither the primitive nor its children are touched later on. -/
theorem later {last : Progress} (h : AttemptedAgain after before p scope) (hsame : SameAt last after p.id)
    (hchildren : ∀ child ∈ p.children, SameAt last after child) : AttemptedAgain last before p scope where
  attempt := by
    rw [hsame.attempt, h.attempt, outcome_congr fun child hchild => (hchildren child hchild).rendered?]
  evaluations := by rw [hsame.evaluationsOf, h.evaluations]
  distance := by rw [hsame.distance, h.distance, hsame.rendered?]

/-- Nothing changes if the primitive was not touched earlier. -/
theorem earlier {first : Progress} (h : AttemptedAgain after before p scope) (hsame : SameAt before first p.id) :
    AttemptedAgain after first p scope where
  attempt := h.attempt
  evaluations := by rw [h.evaluations, hsame.evaluationsOf]
  distance := by rw [h.distance, hsame.distance]

end AttemptedAgain

/-- An attempt for one primitive changes nothing about another. -/
theorem sameAt_evaluate (progress : Progress) (scope : Scope) (h : other ≠ p.id) : SameAt (progress.evaluate p scope) progress other :=
  ⟨NameMap.find?_insert_of_ne _ h, NameMap.find?_insert_of_ne _ h, rfl⟩

/-- An attempt is the latest one for its primitive. -/
theorem attempt_evaluate (progress : Progress) (p : Primitive) (scope : Scope) :
    (progress.evaluate p scope).attempts.find? p.id = some (progress.outcome p scope) :=
  NameMap.find?_insert_self _

theorem evaluationsOf_evaluate (progress : Progress) (p : Primitive) (scope : Scope) :
    (progress.evaluate p scope).evaluationsOf p.id = progress.evaluationsOf p.id + 1 := by
  simp [evaluationsOf, evaluate]

/-- Retrying one primitive leaves the others alone. -/
theorem sameAt_retry (h : other ≠ id) : SameAt (progress.retry registry ancestor id) progress other := by
  unfold retry
  cases hfound : registry.find? id with
  | none => exact SameAt.refl _ _
  | some p =>
    obtain ⟨-, rfl⟩ := Registry.find?_eq_some_iff.1 hfound
    dsimp only
    split
    · exact SameAt.refl _ _
    · have hsame := sameAt_evaluate progress (registry.scopeUpTo p ancestor) h
      split
      · exact ⟨hsame.attempt, hsame.evaluations, (NameMap.find?_insert_of_ne _ h).trans hsame.distance⟩
      · exact hsame

/-- A primitive that no scope can help is not attempted again. -/
theorem retry_of_isClosed (h : progress.isClosed id = true) : progress.retry registry ancestor id = progress := by
  unfold retry
  cases registry.find? id with
  | none => rfl
  | some p => exact if_pos h

/-- A primitive that some scope can still help is attempted once more. -/
theorem attemptedAgain_retry (hp : p ∈ registry.primitives) (hself : p.id ∉ p.children)
    (hopen : progress.isClosed p.id = false) :
    AttemptedAgain (progress.retry registry ancestor p.id) progress p (registry.scopeUpTo p ancestor) := by
  have hchildren : ∀ child ∈ p.children,
      (progress.retry registry ancestor p.id).rendered? child = progress.rendered? child := by
    intro child hchild
    have hne : child ≠ p.id := fun same => hself (same ▸ hchild)
    exact (sameAt_retry hne).rendered?
  generalize hscope : registry.scopeUpTo p ancestor = scope
  have hretry : progress.retry registry ancestor p.id =
      if ((progress.evaluate p scope).rendered? p.id).isSome then
        { progress.evaluate p scope with distances := progress.distances.insert p.id (scope.depth - 1) }
      else progress.evaluate p scope := by
    rw [retry, Registry.find?_of_mem hp]
    dsimp only
    rw [hscope]
    exact if_neg (by rw [← Bool.not_eq_true] at hopen; exact hopen)
  have hattempt : (progress.retry registry ancestor p.id).attempts.find? p.id = some (progress.outcome p scope) := by
    rw [hretry]
    split <;> exact attempt_evaluate progress p scope
  refine ⟨by rw [hattempt, outcome_congr hchildren], ?_, ?_⟩
  · rw [hretry]
    split <;> exact evaluationsOf_evaluate progress p scope
  · rw [hretry]
    split
    · rename_i hrendered
      exact (NameMap.find?_insert_self _).trans (if_pos hrendered).symm
    · rfl

/-! ## All pending primitives -/

/-- What one pass over pending primitives does: it leaves all others alone, and those that no scope can help, and
attempts the rest once more. -/
structure Retried (registry : Registry) (ancestor : String) (after before : Progress) (pending : List String) : Prop where
  others : ∀ id ∉ pending, SameAt after before id
  closed : ∀ id ∈ pending, before.isClosed id = true → SameAt after before id
  attempted : ∀ p ∈ registry.primitives, p.id ∈ pending → before.isClosed p.id = false →
    AttemptedAgain after before p (registry.scopeUpTo p ancestor)

/-- The pass leaves alone what is not pending. -/
theorem sameAt_retryAll {pending : List String} (h : other ∉ pending) :
    SameAt (progress.retryAll registry ancestor pending).2 progress other := by
  induction pending generalizing progress with
  | nil => exact SameAt.refl _ _
  | cons id pending ih =>
    exact (ih (List.not_mem_of_not_mem_cons h)).trans (sameAt_retry (List.ne_of_not_mem_cons h))

/-- A pass over pending primitives of which none is below an earlier one does what `Retried` says. -/
theorem retried_retryAll (hforest : registry.IsForest) (progress : Progress) {pending : List String}
    (horder : pending.Pairwise fun earlier later => ¬ReflTransGen registry.Lists earlier later) :
    Retried registry ancestor (progress.retryAll registry ancestor pending).2 progress pending := by
  induction pending generalizing progress with
  | nil => exact ⟨fun _ _ => SameAt.refl _ _, nofun, nofun⟩
  | cons id pending ih =>
    obtain ⟨habove, horder⟩ := List.pairwise_cons.1 horder
    have hfresh : id ∉ pending := fun hin => habove id hin ReflTransGen.refl
    have hrest := ih (progress.retry registry ancestor id) horder
    refine ⟨fun _ => sameAt_retryAll, fun other hother hclosed => ?_, fun p hp hother hopen => ?_⟩
    · by_cases hsame : other = id
      · subst hsame
        have hnext : SameAt (progress.retry registry ancestor other) progress other := by
          rw [retry_of_isClosed hclosed]
          exact SameAt.refl _ _
        exact (hrest.others other hfresh).trans hnext
      · have hnext : SameAt (progress.retry registry ancestor id) progress other := sameAt_retry hsame
        exact (hrest.closed other (List.mem_of_ne_of_mem hsame hother) (hnext.isClosed.trans hclosed)).trans hnext
    · by_cases hsame : p.id = id
      · subst hsame
        have hlists : ∀ child ∈ p.children, registry.Lists p.id child := fun child hchild => ⟨p, hp, rfl, hchild⟩
        -- no child of the retried primitive comes later, so its children are what they are at the end
        have hself : p.id ∉ p.children := fun hin => hforest.acyclic p.id (TransGen.single (hlists p.id hin))
        refine (attemptedAgain_retry hp hself hopen).later (hrest.others p.id hfresh) fun child hchild => ?_
        exact hrest.others child fun hin => habove child hin (ReflTransGen.single (hlists child hchild))
      · have hnext : SameAt (progress.retry registry ancestor id) progress p.id := sameAt_retry hsame
        have hopen' : (progress.retry registry ancestor id).isClosed p.id = false := hnext.isClosed.trans hopen
        exact (hrest.attempted p hp (List.mem_of_ne_of_mem hsame hother) hopen').earlier hnext

/-- After the pass those are pending that are still deferred. -/
theorem retryAll_fst (registry : Registry) (ancestor : String) {pending : List String} (hnodup : pending.Nodup)
    (progress : Progress) : (progress.retryAll registry ancestor pending).1 =
      pending.filter fun id => ((progress.retryAll registry ancestor pending).2.rendered? id).isNone := by
  induction pending generalizing progress with
  | nil => rfl
  | cons id pending ih =>
    obtain ⟨hfresh, hnodup⟩ := List.nodup_cons.1 hnodup
    have hlast : ((progress.retry registry ancestor id).retryAll registry ancestor pending).2.rendered? id =
        (progress.retry registry ancestor id).rendered? id := (sameAt_retryAll hfresh).rendered?
    rw [retryAll]
    dsimp only
    rw [ih hnodup, List.filter_cons, hlast]
    cases (progress.retry registry ancestor id).rendered? id <;> rfl

end Progress

end Prebake
