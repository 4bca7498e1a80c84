import Prebake.Proofs.Progress.Retry
import Prebake.Proofs.Registry.Places
import Prebake.Proofs.Rendering

/-!
# Settled primitives

The history of a primitive is known from the number of its attempts: the first was made in its own layer, and each later
one in one layer more. `Progress.trial` is what the attempt in so many layers was, with the markup that the children had
by then: they are one layer further from where the visit has come to. `Settled` says that the latest attempt is the
trial with that number, that all before it were open, and that it is open itself only if the scope is exhausted. When the
visit comes to one more ancestor, a settled primitive is settled in one layer more (`Settled.of_retried`).
-/

namespace Prebake

namespace Progress

open Relation

variable {registry : Registry} {progress before after : Progress} {p c : Primitive} {scope : Scope} {id : String}

/-- The markup of a primitive if it was rendered in at most so many layers. -/
def renderedWithin? (progress : Progress) (reach : Nat) (id : String) : Option Rendered :=
  if progress.evaluationsOf id ≤ reach then progress.rendered? id else none

/-- The attempt for a primitive in the innermost `reach` layers of its scope. -/
def trial (progress : Progress) (p : Primitive) (scope : Scope) (reach : Nat) : Attempt :=
  p.attempt (p.children.map (progress.renderedWithin? (reach + 1))) (scope.take reach)

/-- A primitive has been attempted in ever wider parts of a scope until there was nothing left to gain. -/
structure Settled (progress : Progress) (p : Primitive) (scope : Scope) : Prop where
  evaluated : 1 ≤ progress.evaluationsOf p.id
  within : progress.evaluationsOf p.id ≤ scope.length
  attempt : progress.attempts.find? p.id = some (progress.trial p scope (progress.evaluationsOf p.id))
  earlier : ∀ reach, 1 ≤ reach → reach < progress.evaluationsOf p.id → (progress.trial p scope reach).isOpen = true
  exhausted : (progress.trial p scope (progress.evaluationsOf p.id)).isOpen = true →
    progress.evaluationsOf p.id = scope.length
  distance : progress.distances.find? p.id =
    if (progress.rendered? p.id).isSome ∧ 1 < progress.evaluationsOf p.id then some (progress.evaluationsOf p.id - 1)
    else none

/-- What has been rendered in so many attempts is rendered by then. -/
theorem renderedWithin?_of_le {reach : Nat} (h : progress.evaluationsOf id ≤ reach) :
    progress.renderedWithin? reach id = progress.rendered? id := if_pos h

/-- Where nothing changes, the same is rendered by any number of attempts. -/
theorem renderedWithin?_congr (h : SameAt after before id) (reach : Nat) :
    after.renderedWithin? reach id = before.renderedWithin? reach id := by
  rw [renderedWithin?, renderedWithin?, h.evaluationsOf, h.rendered?]

/-- A trial depends on what was rendered of the children by then, and on nothing that came later. -/
theorem trial_congr {reach : Nat} (h : ∀ child ∈ p.children,
    after.renderedWithin? (reach + 1) child = before.renderedWithin? (reach + 1) child) :
    after.trial p scope reach = before.trial p scope reach := by
  rw [trial, trial, List.map_congr_left h]

/-- A trial that is not open was made with the markup that the children still have. -/
theorem trial_eq_of_not_isOpen {reach : Nat} (h : (progress.trial p scope reach).isOpen = false) :
    progress.trial p scope reach = p.attempt (p.children.map progress.rendered?) (scope.take reach) := by
  refine congrArg (p.attempt · _) (List.map_congr_left fun child hchild => ?_)
  have hsome := Primitive.isSome_of_not_isOpen h child hchild
  unfold renderedWithin? at hsome ⊢
  split at hsome
  · rename_i hreach
    exact if_pos hreach
  · cases hsome

/-- An attempt is open if it neither gave markup nor met an obstacle that no scope removes. -/
theorem isOpen_of_find? {attempt : Attempt} (h : progress.attempts.find? id = some attempt) :
    attempt.isOpen = ((progress.rendered? id).isNone && !progress.isClosed id) := by
  simp only [rendered?, isClosed, reason?, h]
  cases attempt with
  | ok rendered => rfl
  | error reason => simp [Attempt.isOpen]

namespace Settled

/-- Whether a primitive is settled depends on itself and its children. -/
theorem congr (h : before.Settled p scope) (hsame : SameAt after before p.id)
    (hchildren : ∀ child ∈ p.children, SameAt after before child) : after.Settled p scope := by
  have htrial : ∀ reach, after.trial p scope reach = before.trial p scope reach := fun reach =>
    trial_congr fun child hchild => renderedWithin?_congr (hchildren child hchild) _
  constructor
  · rw [hsame.evaluationsOf]
    exact h.evaluated
  · rw [hsame.evaluationsOf]
    exact h.within
  · rw [hsame.attempt, hsame.evaluationsOf, htrial]
    exact h.attempt
  · intro reach hone hlt
    rw [hsame.evaluationsOf] at hlt
    rw [htrial]
    exact h.earlier reach hone hlt
  · rw [hsame.evaluationsOf, htrial]
    exact h.exhausted
  · rw [hsame.distance, hsame.evaluationsOf, hsame.rendered?]
    exact h.distance

/-- A settled primitive that some scope could still help has been attempted in the whole of its scope. -/
theorem evaluationsOf_eq (h : progress.Settled p scope) (hdeferred : progress.rendered? p.id = none)
    (hopen : progress.isClosed p.id = false) : progress.evaluationsOf p.id = scope.length := by
  refine h.exhausted ?_
  rw [isOpen_of_find? h.attempt, hdeferred, hopen]
  rfl

/-- What is still open about a settled primitive was found in the whole of its scope, with the markup that its children have
in the end. -/
theorem attempt_of_isOpen {attempt : Attempt} (h : progress.Settled p scope)
    (hattempt : progress.attempts.find? p.id = some attempt) (hopen : attempt.isOpen = true)
    (hchildren : ∀ child ∈ p.children, progress.evaluationsOf child ≤ scope.length + 1) :
    attempt = p.attempt (p.children.map progress.rendered?) scope := by
  obtain rfl : attempt = progress.trial p scope (progress.evaluationsOf p.id) :=
    Option.some.inj (hattempt.symm.trans h.attempt)
  rw [h.exhausted hopen, trial, List.take_length]
  exact congrArg (p.attempt · scope) (List.map_congr_left fun child hchild => renderedWithin?_of_le (hchildren child hchild))

end Settled

/-! ## Coming to an ancestor -/

/-- The pending primitives are those that are deferred, as far as some primitive is concerned. -/
def IsPending (progress : Progress) (pending : List String) (id : String) : Prop :=
  id ∈ pending ↔ progress.rendered? id = none

section Retried

variable {ancestor : String} {pending : List String} {layer : Layer}

/-- Retrying a settled primitive does not touch what was rendered in the scope so far. -/
theorem renderedWithin?_of_retried (h : Retried registry ancestor after before pending) (hc : c ∈ registry.primitives)
    (hpending : before.IsPending pending c.id) (hsettled : before.Settled c scope) {reach : Nat}
    (hreach : reach ≤ scope.length) : after.renderedWithin? reach c.id = before.renderedWithin? reach c.id := by
  by_cases hin : c.id ∈ pending
  · cases hclosed : before.isClosed c.id with
    | true => exact renderedWithin?_congr (h.closed c.id hin hclosed) reach
    | false =>
      have hdeferred := hpending.1 hin
      have hcount := hsettled.evaluationsOf_eq hdeferred hclosed
      have hmore := (h.attempted c hc hin hclosed).evaluations
      rw [renderedWithin?, renderedWithin?, hdeferred, ite_self, if_neg (by omega)]
  · exact renderedWithin?_congr (h.others c.id hin) reach

/-- Retrying a settled primitive adds at most one attempt. -/
theorem evaluationsOf_le_of_retried (h : Retried registry ancestor after before pending) (hc : c ∈ registry.primitives)
    (hsettled : before.Settled c scope) : after.evaluationsOf c.id ≤ scope.length + 1 := by
  have hwithin := hsettled.within
  by_cases hin : c.id ∈ pending
  · cases hclosed : before.isClosed c.id with
    | true =>
      rw [(h.closed c.id hin hclosed).evaluationsOf]
      omega
    | false =>
      rw [(h.attempted c hc hin hclosed).evaluations]
      omega
  · rw [(h.others c.id hin).evaluationsOf]
    omega

/-- A settled primitive that is not attempted again is settled in a scope with one more layer. -/
theorem Settled.of_kept (hsettled : before.Settled p scope) (hsame : SameAt after before p.id)
    (htrial : ∀ reach ≤ scope.length, after.trial p (scope ++ [layer]) reach = before.trial p scope reach)
    (hfinal : (before.trial p scope (before.evaluationsOf p.id)).isOpen = false) :
    after.Settled p (scope ++ [layer]) := by
  have hwithin := hsettled.within
  constructor
  · rw [hsame.evaluationsOf]
    exact hsettled.evaluated
  · rw [hsame.evaluationsOf, List.length_append]
    omega
  · rw [hsame.attempt, hsame.evaluationsOf, htrial _ hwithin]
    exact hsettled.attempt
  · intro reach hone hlt
    rw [hsame.evaluationsOf] at hlt
    rw [htrial reach (by omega)]
    exact hsettled.earlier reach hone hlt
  · rw [hsame.evaluationsOf, htrial _ hwithin, hfinal]
    exact nofun
  · rw [hsame.distance, hsame.evaluationsOf, hsame.rendered?]
    exact hsettled.distance

/-- A settled primitive that is attempted again is settled in a scope with one more layer. -/
theorem Settled.of_attemptedAgain (hsettled : before.Settled p scope)
    (hagain : AttemptedAgain after before p (scope ++ [layer]))
    (htrial : ∀ reach ≤ scope.length, after.trial p (scope ++ [layer]) reach = before.trial p scope reach)
    (hwhole : after.trial p (scope ++ [layer]) (scope.length + 1) = after.outcome p (scope ++ [layer]))
    (hdeferred : before.rendered? p.id = none) (hopen : before.isClosed p.id = false) :
    after.Settled p (scope ++ [layer]) := by
  have hcount := hsettled.evaluationsOf_eq hdeferred hopen
  have hone := hsettled.evaluated
  have hmore : after.evaluationsOf p.id = scope.length + 1 := by rw [hagain.evaluations, hcount]
  constructor
  · omega
  · rw [hmore, List.length_append, List.length_singleton]
  · rw [hagain.attempt, hmore, hwhole]
  · intro reach hone hlt
    rw [htrial reach (by omega)]
    by_cases hlast : reach = before.evaluationsOf p.id
    · rw [hlast, isOpen_of_find? hsettled.attempt, hdeferred, hopen]
      rfl
    · exact hsettled.earlier reach hone (by omega)
  · intro _
    rw [hmore, List.length_append, List.length_singleton]
  · have hbefore : before.distances.find? p.id = none := by
      rw [hsettled.distance, hdeferred]
      rfl
    rw [hagain.distance, hbefore, hmore]
    have hwider : 1 < scope.length + 1 := by omega
    simp [hwider, Scope.depth]

/-- When the visit comes to an ancestor, a settled primitive is settled in a scope with one more layer. -/
theorem Settled.of_retried (h : Retried registry ancestor after before pending) (hp : p ∈ registry.primitives)
    (hscope : registry.scopeUpTo p ancestor = scope ++ [layer]) (hpending : before.IsPending pending p.id)
    (hsettled : before.Settled p scope)
    (hchildren : ∀ child ∈ p.children, ∃ c ∈ registry.primitives, c.id = child ∧ before.IsPending pending child ∧
      before.Settled c (c.layer :: scope)) : after.Settled p (scope ++ [layer]) := by
  -- trials of up to so many layers are known from before: the children had made them already
  have htrial : ∀ reach ≤ scope.length, after.trial p (scope ++ [layer]) reach = before.trial p scope reach := by
    intro reach hreach
    rw [trial, List.take_append_of_le_length hreach]
    refine trial_congr fun child hchild => ?_
    obtain ⟨c, hc, rfl, hcPending, hcSettled⟩ := hchildren child hchild
    exact renderedWithin?_of_retried h hc hcPending hcSettled (Nat.succ_le_succ hreach)
  by_cases hin : p.id ∈ pending
  · cases hclosed : before.isClosed p.id with
    | true =>
      refine hsettled.of_kept (h.closed p.id hin hclosed) htrial ?_
      rw [isOpen_of_find? hsettled.attempt, hclosed, Bool.not_true, Bool.and_false]
    | false =>
      -- the new trial is made with the markup that the children have after the retries
      refine hsettled.of_attemptedAgain (hscope ▸ h.attempted p hp hin hclosed) htrial ?_ (hpending.1 hin) hclosed
      have hwhole : (scope ++ [layer]).take (scope.length + 1) = scope ++ [layer] :=
        List.take_of_length_le (by simp)
      rw [trial, hwhole, outcome, List.map_congr_left]
      intro child hchild
      obtain ⟨c, hc, rfl, -, hcSettled⟩ := hchildren child hchild
      exact renderedWithin?_of_le (evaluationsOf_le_of_retried h hc hcSettled)
  · refine hsettled.of_kept (h.others p.id hin) htrial ?_
    have hrendered : before.rendered? p.id ≠ none := fun hnone => hin (hpending.2 hnone)
    rw [isOpen_of_find? hsettled.attempt, Option.isNone_eq_false_iff.2 (Option.isSome_iff_ne_none.2 hrendered),
      Bool.false_and]

end Retried

end Progress

end Prebake
