import Prebake.Registry.Tree

/-!
# Progress through a tree

A tree is visited once, children before their parents. A primitive that cannot be rendered in its own scope stays
pending. When the visit comes to one of its ancestors, it is attempted again in the scope that reaches up to that
ancestor, until it is rendered, no scope can help it, or the root has been passed.
-/

namespace Prebake

/-- What is known of a tree while it is visited. -/
structure Progress where
  /-- The latest attempt for each primitive. -/
  attempts : NameMap Attempt
  /-- How often each primitive was attempted. -/
  evaluations : NameMap Nat
  /-- How far up the scope had to reach for each primitive that was not rendered in its own scope. -/
  distances : NameMap Nat
  /-- How many primitives were not rendered in their own scope. -/
  deferrals : Nat

namespace Progress

/-- Nothing visited yet. -/
def empty : Progress := ⟨NameMap.empty, NameMap.empty, NameMap.empty, 0⟩

/-- The markup of a primitive, if it has been rendered. -/
def rendered? (progress : Progress) (id : String) : Option Rendered :=
  match progress.attempts.find? id with
  | some (.ok rendered) => some rendered
  | _ => none

/-- The reason for which a primitive is deferred. -/
def reason? (progress : Progress) (id : String) : Option Reason :=
  match progress.attempts.find? id with
  | some (.error reason) => some reason
  | _ => none

/-- The outcome of an attempt to render a primitive in a scope with the markup of its children so far. -/
def outcome (progress : Progress) (p : Primitive) (scope : Scope) : Attempt :=
  p.attempt (p.children.map progress.rendered?) scope

/-- One more attempt to render a primitive. -/
def evaluate (progress : Progress) (p : Primitive) (scope : Scope) : Progress where
  attempts := progress.attempts.insert p.id (progress.outcome p scope)
  evaluations := progress.evaluations.insert p.id ((progress.evaluations.find? p.id).getD 0 + 1)
  distances := progress.distances
  deferrals := progress.deferrals

/-- The visit comes to an ancestor of a pending primitive: another attempt, unless no scope can help. -/
def retry (registry : Registry) (ancestor : String) (progress : Progress) (id : String) : Progress :=
  match registry.find? id with
  | none => progress
  | some p =>
    if (progress.reason? id).any fun reason => !reason.isRetryable then progress
    else
      let scope := registry.scopeUpTo p ancestor
      let next := progress.evaluate p scope
      if (next.rendered? id).isSome then { next with distances := next.distances.insert id (scope.depth - 1) }
      else next

/-- The visit comes to an ancestor of pending primitives: each of them is retried in turn, and those that are still
deferred are pending further. -/
def retryAll (registry : Registry) (ancestor : String) (progress : Progress) : List String → List String × Progress
  | [] => ([], progress)
  | id :: pending =>
    let next := progress.retry registry ancestor id
    let (deferred, last) := retryAll registry ancestor next pending
    (if (next.rendered? id).isSome then deferred else id :: deferred, last)

/-- The visit comes to a primitive: the first attempt, in its own scope. -/
def begin (progress : Progress) (p : Primitive) : Progress :=
  let next := progress.evaluate p [p.layer]
  if (next.rendered? p.id).isSome then next else { next with deferrals := next.deferrals + 1 }

mutual

/-- Visits a tree, and lists the primitives that are still deferred. -/
def visit (registry : Registry) (progress : Progress) : Tree → List String × Progress
  | .node p children =>
    let (below, progress) := visitAll registry progress children
    let (pending, progress) := progress.retryAll registry p.id below
    let progress := progress.begin p
    (if (progress.rendered? p.id).isSome then pending else pending ++ [p.id], progress)

/-- Visits trees one after the other. -/
def visitAll (registry : Registry) (progress : Progress) : List Tree → List String × Progress
  | [] => ([], progress)
  | tree :: trees =>
    let (first, progress) := visit registry progress tree
    let (others, progress) := visitAll registry progress trees
    (first ++ others, progress)

end

end Progress

end Prebake
