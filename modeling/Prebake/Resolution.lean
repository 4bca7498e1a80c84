import Prebake.Config.Basic
import Prebake.Progress
import Prebake.Registry.Validation

/-!
# Resolution

A valid registry is resolved tree by tree. A tree whose root stays deferred has no markup; depending on the policy it
is left to be rendered at serve time, or it ends the build with the primitive that lacks something and the way up from
it.
-/

namespace Prebake

/-- What has become of a primitive. -/
inductive State where
  | resolved (html : String)
  | deferred (reason : Reason)
deriving DecidableEq, Repr

/-- What an attempt makes of a primitive. -/
def Attempt.state : Attempt → State
  | .ok rendered => .resolved rendered.html
  | .error reason => .deferred reason

/-- Whether a primitive has markup. -/
def State.isResolved : State → Bool
  | .resolved _ => true
  | .deferred _ => false

/-- Counts over a resolution. -/
@[ext]
structure Stats where
  trees : Nat
  nodes : Nat
  evaluations : Nat
  /-- The primitives that were not rendered in their own scope. -/
  deferrals : Nat
  /-- Those of them that were rendered later. -/
  bubbled : Nat
  maxBubbleDistance : Nat
  unresolved : Nat
deriving DecidableEq, Repr

namespace Stats

/-- The counts over nothing. -/
def zero : Stats := ⟨0, 0, 0, 0, 0, 0, 0⟩

/-- The counts over two parts of a resolution. -/
def add (a b : Stats) : Stats where
  trees := a.trees + b.trees
  nodes := a.nodes + b.nodes
  evaluations := a.evaluations + b.evaluations
  deferrals := a.deferrals + b.deferrals
  bubbled := a.bubbled + b.bubbled
  maxBubbleDistance := max a.maxBubbleDistance b.maxBubbleDistance
  unresolved := a.unresolved + b.unresolved

end Stats

/-- The greatest of some numbers, or zero if there are none. -/
def greatest (numbers : List Nat) : Nat := numbers.foldl max 0

namespace Progress

/-- Follows the reasons down from a deferred primitive, for at most so many steps, to the one that lacks something.
The way is given from its end to its beginning, with the last reason on it. -/
def culprit (progress : Progress) : Nat → List String → String → Reason → List String × Reason
  | 0, above, id, reason => (id :: above, reason)
  | steps + 1, above, id, reason =>
    match progress.reason? id with
    | some (.deferredChild child) => culprit progress steps (id :: above) child (.deferredChild child)
    | some other => (id :: above, other)
    | none => (id :: above, reason)

/-- The failure of a tree whose root is deferred. -/
def failure (progress : Progress) (root : String) : Failure :=
  let (way, reason) := progress.culprit progress.attempts.size [] root (.deferredChild root)
  .unresolvable (way.headD root) way reason

/-- The counts over a visited tree in which some primitives are still pending. -/
def stats (progress : Progress) (registry : Registry) (root : String) (pending : List String) : Stats where
  trees := 1
  nodes := progress.attempts.size
  evaluations := progress.evaluations.values.foldl (· + ·) 0
  deferrals := progress.deferrals
  bubbled := progress.distances.size
  maxBubbleDistance := greatest (progress.distances.values ++ pending.map fun id => registry.distance id root)
  unresolved := pending.length

end Progress

/-- A tree with its markup, unless its root is deferred. -/
structure ResolvedTree where
  root : String
  rendered? : Option Rendered

/-- What has become of a registry. -/
structure Resolution where
  /-- The trees in the order of their roots in the registry. -/
  trees : List ResolvedTree
  states : NameMap State
  evaluations : NameMap Nat
  stats : Stats

namespace Resolution

/-- The resolution of nothing. -/
def empty : Resolution := ⟨[], NameMap.empty, NameMap.empty, Stats.zero⟩

/-- The resolution with one more tree. -/
def add (resolution tree : Resolution) : Resolution where
  trees := resolution.trees ++ tree.trees
  states := resolution.states.union tree.states
  evaluations := resolution.evaluations.union tree.evaluations
  stats := resolution.stats.add tree.stats

/-- What has become of a primitive. -/
def state? (resolution : Resolution) (id : String) : Option State := resolution.states.find? id

/-- How often a primitive was attempted. -/
def evaluationsOf (resolution : Resolution) (id : String) : Nat := (resolution.evaluations.find? id).getD 0

/-- The tree with a root. -/
def tree? (resolution : Resolution) (root : String) : Option ResolvedTree := resolution.trees.find? (·.root == root)

/-- The markup of the tree with a root. -/
def html? (resolution : Resolution) (root : String) : Option String :=
  ((resolution.tree? root).bind (·.rendered?)).map (·.html)

end Resolution

namespace Registry

/-- Visits the tree below a root. -/
def visitTree (registry : Registry) (root : Primitive) : List String × Progress :=
  Progress.empty.visit registry (registry.tree root)

/-- The resolution of the tree below a root, and the failure that it is if the root stays deferred. -/
def resolveTree (registry : Registry) (root : Primitive) : Resolution × Option Failure :=
  let (pending, progress) := registry.visitTree root
  let rendered? := progress.rendered? root.id
  let resolution : Resolution :=
    { trees := [⟨root.id, rendered?⟩]
      states := progress.attempts.mapValues Attempt.state
      evaluations := progress.evaluations
      stats := progress.stats registry root.id pending }
  (resolution, if rendered?.isSome then none else some (progress.failure root.id))

/-- The resolution of the trees below some roots. -/
def resolveTrees (registry : Registry) (policy : Policy) (resolution : Resolution) :
    List Primitive → Except Failure Resolution
  | [] => .ok resolution
  | root :: roots =>
    match registry.resolveTree root, policy with
    | (_, some failure), .fail => .error failure
    | (tree, _), _ => resolveTrees registry policy (resolution.add tree) roots

/-- The resolution of a registry, which must be valid. -/
def resolve (registry : Registry) (config : Config) : Except Failure Resolution := do
  registry.validate
  registry.resolveTrees config.onUnresolvable Resolution.empty registry.roots

end Registry

end Prebake
