import Mathlib.Order.Basic
import Prebake.Proofs.Coverage
import Prebake.Proofs.Progress.Deferrals

/-!
# What the statistics of a resolution tell

Every figure in the statistics is collected in its own way while trees are visited: from a counter, from the sizes of tables,
from the list of what is still pending. Together they account for the run (`Resolution.Accounts`): each figure can be computed
from what the resolution tells of the single primitives. Each is shown of one tree first, and then added up over all trees
(`resolve_accounts`).
-/

namespace Prebake

/-! ## Figures of single primitives -/

namespace Resolution

/-- Whether a primitive was rendered after it had been deferred. -/
def isBubbled (resolution : Resolution) (id : String) : Bool :=
  !resolution.isDeferred id && decide (1 < resolution.evaluationsOf id)

/-- How far a primitive has bubbled, or out to its root if it is still deferred; `way` are the primitives above it. -/
def bubbleDistance (resolution : Resolution) (p : Primitive) (way : List Primitive) : Nat :=
  if resolution.isDeferred p.id then way.length else resolution.evaluationsOf p.id - 1

/-- The statistics of a resolution account for what it tells of the primitives. -/
structure Accounts (resolution : Resolution) (registry : Registry) : Prop where
  trees : resolution.stats.trees = registry.roots.length
  evaluations : resolution.stats.evaluations = resolution.evaluations.values.sum
  unresolved : resolution.stats.unresolved = resolution.states.entries.countP fun entry => !entry.2.isResolved
  bubbled : resolution.stats.bubbled = resolution.states.entries.countP fun entry =>
    entry.2.isResolved && decide (1 < resolution.evaluationsOf entry.1)
  deferrals : resolution.stats.deferrals = resolution.stats.bubbled + resolution.stats.unresolved
  /-- The greatest distance, or zero if there are no primitives. -/
  maxBubbleDistance : resolution.stats.maxBubbleDistance =
    (registry.places.map fun (p, way) => resolution.bubbleDistance p way).max?.getD 0

end Resolution

/-! ## Greatest numbers and sums -/

/-- A bound of all numbers is a bound of the greatest. -/
theorem greatest_le_iff {numbers : List Nat} {bound : Nat} : greatest numbers ≤ bound ↔ ∀ n ∈ numbers, n ≤ bound := by
  have hfold : ∀ first : Nat, numbers.foldl max first ≤ bound ↔ first ≤ bound ∧ ∀ n ∈ numbers, n ≤ bound := by
    induction numbers with
    | nil => simp
    | cons n numbers ih =>
      intro first
      rw [List.foldl_cons, ih, Nat.max_le, List.forall_mem_cons, and_assoc]
  rw [greatest, hfold]
  exact and_iff_right (Nat.zero_le _)

/-- The greatest of no numbers is zero. -/
theorem greatest_eq_max? (numbers : List Nat) : greatest numbers = numbers.max?.getD 0 := by
  cases numbers with
  | nil => rfl
  | cons n numbers =>
    rw [greatest, List.foldl_cons, Nat.zero_max, List.max?_cons']
    rfl

/-- The greatest of the numbers of several lists. -/
theorem greatest_flatMap {α : Type} (items : List α) (numbers : α → List Nat) :
    greatest (items.flatMap numbers) = greatest (items.map fun item => greatest (numbers item)) := by
  refine eq_of_forall_ge_iff fun bound => ?_
  simp only [greatest_le_iff, List.forall_mem_flatMap, List.forall_mem_map]

/-- A sum can be made of the sums of its parts. -/
private theorem sum_flatMap {α : Type} (items : List α) (numbers : α → List Nat) :
    (items.flatMap numbers).sum = (items.map fun item => (numbers item).sum).sum := by
  rw [List.flatMap, List.sum_flatten, List.map_map]
  rfl

/-! ## Single trees -/

namespace NameMap

/-- The values of a map stand under its names. -/
theorem mem_values_iff {α : Type} {map : NameMap α} {value : α} : value ∈ map.values ↔ ∃ name, map.find? name = some value := by
  constructor
  · intro hvalue
    obtain ⟨entry, hentry, rfl⟩ := List.mem_map.1 hvalue
    exact ⟨entry.1, find?_of_mem_entries hentry⟩
  · rintro ⟨name, hfound⟩
    obtain ⟨before, after, hentries, -⟩ := List.lookup_eq_some_iff.1 hfound
    rw [values, hentries]
    simp

end NameMap

namespace Progress

variable {registry : Registry} {progress : Progress} {tree : Tree} {pending : List String} {id : String}

/-- Whether a primitive was rendered after it had been deferred. -/
def isBubbled (progress : Progress) (id : String) : Bool :=
  (progress.rendered? id).isSome && decide (1 < progress.evaluationsOf id)

/-- What was not rendered at the first attempt is still deferred or was rendered later. -/
theorem isNone_renderedWithin?_one (progress : Progress) (id : String) :
    (progress.renderedWithin? 1 id).isNone = ((progress.rendered? id).isNone || progress.isBubbled id) := by
  unfold renderedWithin? isBubbled
  by_cases hcount : progress.evaluationsOf id ≤ 1
  · have hone : ¬1 < progress.evaluationsOf id := by omega
    simp [hcount, hone]
  · have hmore : 1 < progress.evaluationsOf id := by omega
    rw [if_neg hcount]
    cases progress.rendered? id <;> simp [hmore]

namespace Visited

/-- There is a distance for each primitive that was rendered after it had been deferred. -/
theorem find?_distances (h : Visited progress empty tree pending) (id : String) : progress.distances.find? id =
    if id ∈ tree.ids ∧ progress.isBubbled id = true then some (progress.evaluationsOf id - 1) else none := by
  by_cases hid : id ∈ tree.ids
  · obtain ⟨p, way, hp, rfl⟩ := Tree.exists_mem_places [] hid
    rw [(h.settled p way hp).distance]
    simp [isBubbled, hid]
  · rw [if_neg fun hboth => hid hboth.1]
    exact (h.others id hid).distance

/-- The number of distances is the number of primitives that were rendered after they had been deferred. -/
theorem size_distances (h : Visited progress empty tree pending) (hnodup : tree.ids.Nodup) :
    progress.distances.size = tree.ids.countP progress.isBubbled := by
  rw [List.countP_eq_length_filter]
  refine NameMap.size_eq_length (hnodup.filter _) fun id => ?_
  rw [NameMap.contains, h.find?_distances, List.mem_filter]
  split <;> simp_all

/-- A visit leaves as many primitives pending as it has not rendered. -/
theorem length_pending (h : Visited progress empty tree pending) :
    pending.length = tree.ids.countP fun id => (progress.rendered? id).isNone := by
  rw [h.pending, List.countP_eq_length_filter]

/-- The distances of a tree are those of the primitives that were rendered after they had been deferred. -/
theorem forall_mem_distances_iff (h : Visited progress empty tree pending) {bound : Nat} :
    (∀ distance ∈ progress.distances.values, distance ≤ bound) ↔ ∀ p way, (p, way) ∈ tree.places [] →
      progress.isBubbled p.id = true → progress.evaluationsOf p.id - 1 ≤ bound := by
  constructor
  · intro hdistances p way hp hbubbled
    refine hdistances _ (NameMap.mem_values_iff.2 ⟨p.id, ?_⟩)
    rw [h.find?_distances, if_pos ⟨Tree.mem_ids_of_mem_places hp, hbubbled⟩]
  · intro hplaces distance hvalue
    obtain ⟨id, hfound⟩ := NameMap.mem_values_iff.1 hvalue
    rw [h.find?_distances] at hfound
    split at hfound
    · rename_i hboth
      obtain ⟨p, way, hp, rfl⟩ := Tree.exists_mem_places [] hboth.1
      rw [← Option.some.inj hfound]
      exact hplaces p way hp hboth.2
    · cases hfound

/-- The pending primitives of a tree are as far from its root as there are primitives above them. -/
theorem forall_mem_pending_iff (h : Visited progress empty tree pending) (hforest : registry.IsForest)
    (hgrown : Tree.Grown registry [] tree) {bound : Nat} :
    (∀ id ∈ pending, registry.distance id tree.top.id ≤ bound) ↔ ∀ p way, (p, way) ∈ tree.places [] →
      (progress.rendered? p.id).isNone = true → way.length ≤ bound := by
  have hdistance : ∀ p way, (p, way) ∈ tree.places [] → registry.distance p.id tree.top.id = way.length :=
    fun p way hp => (hgrown.lineage_of_mem_places hp).distance_eq hforest (Tree.getLast?_of_mem_places hp)
  simp only [h.pending, List.mem_filter]
  constructor
  · intro hpending p way hp hdeferred
    rw [← hdistance p way hp]
    exact hpending p.id ⟨Tree.mem_ids_of_mem_places hp, hdeferred⟩
  · rintro hplaces id ⟨hid, hdeferred⟩
    obtain ⟨p, way, hp, rfl⟩ := Tree.exists_mem_places [] hid
    rw [hdistance p way hp]
    exact hplaces p way hp hdeferred

/-- The greatest distance in a tree is that of the primitive that has bubbled furthest or is still deferred furthest from the
root. -/
theorem greatest_distances (h : Visited progress empty tree pending) (hforest : registry.IsForest)
    (hgrown : Tree.Grown registry [] tree) :
    greatest (progress.distances.values ++ pending.map fun id => registry.distance id tree.top.id) =
      greatest ((tree.places []).map fun (p, way) =>
        if (progress.rendered? p.id).isNone then way.length else progress.evaluationsOf p.id - 1) := by
  refine eq_of_forall_ge_iff fun bound => ?_
  simp only [greatest_le_iff, List.forall_mem_append, List.forall_mem_map, Prod.forall, h.forall_mem_distances_iff,
    h.forall_mem_pending_iff hforest hgrown, ← forall_and]
  refine forall₃_congr fun p way _ => ?_
  -- a primitive that was rendered at once has no distance, and none is needed for it
  unfold isBubbled
  cases progress.rendered? p.id with
  | none => simp
  | some rendered =>
    simp only [Option.isSome_some, Option.isNone_some, Bool.true_and, decide_eq_true_iff, Bool.false_eq_true, ite_false,
      false_imp_iff, and_true]
    omega

end Visited

end Progress

namespace Registry

variable {registry : Registry} {root : Primitive} {id : String}

section Whole

variable (hforest : registry.IsForest)

include hforest

/-- A primitive is deferred in the end if the visit of its tree has not rendered it. -/
theorem IsForest.isDeferred_addTrees (hroot : root ∈ registry.roots) (hid : id ∈ (registry.tree root).ids) :
    (registry.addTrees Resolution.empty registry.roots).isDeferred id =
      ((registry.visitTree root).2.rendered? id).isNone := by
  rw [← hforest.isDeferred_resolveTree hroot hid, Resolution.isDeferred, hforest.state?_addTrees hroot hid]
  rfl

/-- A primitive has bubbled in the end if it has in the visit of its tree. -/
theorem IsForest.isBubbled_addTrees (hroot : root ∈ registry.roots) (hid : id ∈ (registry.tree root).ids) :
    (registry.addTrees Resolution.empty registry.roots).isBubbled id = (registry.visitTree root).2.isBubbled id := by
  rw [Resolution.isBubbled, hforest.isDeferred_addTrees hroot hid, hforest.evaluationsOf_addTrees hroot hid,
    Progress.isBubbled]
  cases (registry.visitTree root).2.rendered? id <;> rfl

/-- What is counted in each tree is counted in the whole registry. -/
theorem IsForest.sum_countP (q : String → Bool) :
    (registry.roots.map fun root => (registry.tree root).ids.countP q).sum = registry.ids.countP q := by
  rw [← hforest.perm_ids.countP_eq, List.countP_flatMap, List.map_map]
  rfl

/-! ## Single trees of a registry -/

/-- Of a tree those were deferred at first that are deferred in the end or have bubbled. -/
theorem IsForest.deferrals_resolveTree (hroot : root ∈ registry.roots) :
    (registry.resolveTree root).1.stats.deferrals = (registry.tree root).ids.countP fun id =>
      (registry.addTrees Resolution.empty registry.roots).isDeferred id ||
        (registry.addTrees Resolution.empty registry.roots).isBubbled id := by
  have hcount := Progress.deferrals_visit hforest (hforest.grown_tree hroot) Progress.empty fun _ _ =>
    Progress.SameAt.refl _ _
  refine (hcount.trans (Nat.zero_add _)).trans (List.countP_congr fun id hid => ?_)
  rw [hforest.isDeferred_addTrees hroot hid, hforest.isBubbled_addTrees hroot hid, ← Progress.isNone_renderedWithin?_one]
  rfl

/-- The statistics of a tree count those that have bubbled. -/
theorem IsForest.bubbled_resolveTree (hroot : root ∈ registry.roots) :
    (registry.resolveTree root).1.stats.bubbled =
      (registry.tree root).ids.countP (registry.addTrees Resolution.empty registry.roots).isBubbled := by
  refine ((hforest.visited_visitTree hroot).size_distances (hforest.nodup_ids_tree hroot)).trans ?_
  exact List.countP_congr fun id hid => by rw [hforest.isBubbled_addTrees hroot hid]

/-- The statistics of a tree count those that are deferred in the end. -/
theorem IsForest.unresolved_resolveTree (hroot : root ∈ registry.roots) :
    (registry.resolveTree root).1.stats.unresolved =
      (registry.tree root).ids.countP (registry.addTrees Resolution.empty registry.roots).isDeferred := by
  refine (hforest.visited_visitTree hroot).length_pending.trans ?_
  exact List.countP_congr fun id hid => by rw [hforest.isDeferred_addTrees hroot hid]

/-- The attempts in a tree are those for each of its primitives, added up. -/
theorem IsForest.evaluations_resolveTree (hroot : root ∈ registry.roots) :
    (registry.resolveTree root).1.stats.evaluations =
      ((registry.tree root).ids.map (registry.addTrees Resolution.empty registry.roots).evaluationsOf).sum := by
  have hsum := NameMap.sum_values (hforest.nodup_ids_tree hroot) fun _ => hforest.contains_evaluations hroot
  refine (List.sum_eq_foldl ..).symm.trans (hsum.trans (congrArg List.sum (List.map_congr_left fun id hid => ?_)))
  exact (hforest.evaluationsOf_addTrees hroot hid).symm

/-- The greatest distance in a tree is that of the primitive that has bubbled furthest. -/
theorem IsForest.maxBubbleDistance_resolveTree (hroot : root ∈ registry.roots) :
    (registry.resolveTree root).1.stats.maxBubbleDistance = greatest (((registry.tree root).places []).map fun (p, way) =>
      (registry.addTrees Resolution.empty registry.roots).bubbleDistance p way) := by
  have hgreatest := (hforest.visited_visitTree hroot).greatest_distances hforest (hforest.grown_tree hroot)
  rw [tree_top] at hgreatest
  refine hgreatest.trans (congrArg greatest (List.map_congr_left fun (p, way) hp => ?_))
  have hid := Tree.mem_ids_of_mem_places hp
  dsimp only
  rw [Resolution.bubbleDistance, hforest.isDeferred_addTrees hroot hid, hforest.evaluationsOf_addTrees hroot hid]

/-! ## All trees of a registry -/

end Whole

/-- The greatest distance in several trees is the greatest of their greatest distances. -/
theorem maxBubbleDistance_addTrees (registry : Registry) (resolution : Resolution) (roots : List Primitive) :
    (registry.addTrees resolution roots).stats.maxBubbleDistance = max resolution.stats.maxBubbleDistance
      (greatest (roots.map fun root => (registry.resolveTree root).1.stats.maxBubbleDistance)) := by
  refine eq_of_forall_ge_iff fun bound => ?_
  rw [Nat.max_le, greatest_le_iff, List.forall_mem_map]
  induction roots generalizing resolution with
  | nil => simp [addTrees]
  | cons root roots ih =>
    refine (ih _).trans ?_
    rw [List.forall_mem_cons, ← and_assoc, ← Nat.max_le]
    rfl

/-- What is counted in the trees and agrees with a property of primitives is counted by that property. -/
theorem IsForest.count_eq_countP (hforest : registry.IsForest) {count : Stats → Nat} {q : String → Bool}
    (hcount : ∀ a b, count (a.add b) = count a + count b) (hzero : count Stats.zero = 0)
    (htree : ∀ root ∈ registry.roots, count (registry.resolveTree root).1.stats = (registry.tree root).ids.countP q) :
    count (registry.addTrees Resolution.empty registry.roots).stats = registry.ids.countP q := by
  have hempty : count Resolution.empty.stats = 0 := hzero
  rw [count_addTrees count hcount, hempty, Nat.zero_add, List.map_congr_left htree, hforest.sum_countP]

/-- The primitives about which something is told are counted by what is told of them. -/
theorem IsForest.countP_states (hforest : registry.IsForest) (q : String × State → Bool) :
    (registry.addTrees Resolution.empty registry.roots).states.entries.countP q = registry.ids.countP fun id =>
      ((registry.addTrees Resolution.empty registry.roots).state? id).any fun state => q (id, state) :=
  NameMap.countP_entries registry.nodup (fun _ => NameMap.mem_names_iff.symm.trans hforest.mem_names_states) q

/-- The attempts in all trees are the attempts that are told of the primitives. -/
theorem IsForest.evaluations_eq_sum (hforest : registry.IsForest) :
    (registry.addTrees Resolution.empty registry.roots).stats.evaluations =
      (registry.addTrees Resolution.empty registry.roots).evaluations.values.sum := by
  have hvalues := NameMap.sum_values registry.nodup fun _ =>
    NameMap.mem_names_iff.symm.trans hforest.mem_names_evaluations
  rw [hvalues, count_addTrees Stats.evaluations fun _ _ => rfl,
    List.map_congr_left fun root hroot => hforest.evaluations_resolveTree hroot]
  show 0 + _ = (registry.ids.map (registry.addTrees Resolution.empty registry.roots).evaluationsOf).sum
  rw [Nat.zero_add, ← (hforest.perm_ids.map _).sum_nat, List.map_flatMap, sum_flatMap, List.map_map]
  rfl

/-- The greatest distance in a registry is that of the primitive that has bubbled furthest. -/
theorem IsForest.maxBubbleDistance_eq (hforest : registry.IsForest) :
    (registry.addTrees Resolution.empty registry.roots).stats.maxBubbleDistance = greatest (registry.places.map
      fun (p, way) => (registry.addTrees Resolution.empty registry.roots).bubbleDistance p way) := by
  rw [maxBubbleDistance_addTrees, List.map_congr_left fun root hroot => hforest.maxBubbleDistance_resolveTree hroot,
    places, List.map_flatMap, greatest_flatMap]
  exact Nat.zero_max _

/-- A primitive that was rendered after it had been deferred is resolved, and was attempted more than once. -/
theorem IsForest.isBubbled_eq_any (hforest : registry.IsForest) (hid : id ∈ registry.ids) :
    (registry.addTrees Resolution.empty registry.roots).isBubbled id =
      ((registry.addTrees Resolution.empty registry.roots).state? id).any fun state =>
        state.isResolved && decide (1 < (registry.addTrees Resolution.empty registry.roots).evaluationsOf id) := by
  have htold := NameMap.mem_names_iff.1 (hforest.mem_names_states.2 hid)
  obtain ⟨state, hstate⟩ := Option.isSome_iff_exists.1 htold
  have hstate' : (registry.addTrees Resolution.empty registry.roots).state? id = some state := hstate
  rw [Resolution.isBubbled, Resolution.isDeferred, hstate']
  simp

/-- What the visits of all trees found is accounted for. -/
theorem IsForest.accounts (hforest : registry.IsForest) :
    (registry.addTrees Resolution.empty registry.roots).Accounts registry := by
  have hevaluations := hforest.evaluations_eq_sum
  have hdistance := hforest.maxBubbleDistance_eq
  have hstates := hforest.countP_states
  have hany := fun id (hid : id ∈ registry.ids) => hforest.isBubbled_eq_any hid
  have htrees : (registry.addTrees Resolution.empty registry.roots).stats.trees = registry.roots.length := by
    rw [count_addTrees Stats.trees fun _ _ => rfl]
    show 0 + (registry.roots.map fun _ => 1).sum = _
    simp
  have hdeferrals := hforest.count_eq_countP (fun _ _ => rfl) rfl fun root hroot => hforest.deferrals_resolveTree hroot
  have hbubbled := hforest.count_eq_countP (fun _ _ => rfl) rfl fun root hroot => hforest.bubbled_resolveTree hroot
  have hunresolved := hforest.count_eq_countP (fun _ _ => rfl) rfl fun root hroot => hforest.unresolved_resolveTree hroot
  generalize registry.addTrees Resolution.empty registry.roots = whole at *
  constructor
  · exact htrees
  · exact hevaluations
  · rw [hunresolved, hstates]
    rfl
  · rw [hbubbled, hstates]
    exact List.countP_congr fun id hid => by rw [hany id hid]
  · -- what was deferred at first is still deferred or has bubbled, and not both
    rw [hdeferrals, hbubbled, hunresolved, List.countP_eq_countP_filter_add _ _ whole.isDeferred, Nat.add_comm]
    rw [List.countP_filter, List.countP_filter]
    congr 1
    · refine List.countP_congr fun id _ => ?_
      rw [Resolution.isBubbled]
      cases whole.isDeferred id <;> simp
    · refine List.countP_congr fun id _ => ?_
      cases whole.isDeferred id <;> simp
  · rw [hdistance, greatest_eq_max?]

/-- The statistics account for the run. The trees are those of the roots; the attempts counted are those that are told of the
primitives; the primitives that were deferred at first are those that were resolved later and those that are still deferred;
and the greatest distance is the greatest of how far the resolved ones had to bubble and how far the deferred ones are from
their root. Each primitive counts at one place, which is its way up to its root. -/
theorem resolve_accounts {config : Config} {resolution : Resolution} (hresolve : registry.resolve config = .ok resolution) :
    registry.AllPlaced ∧ resolution.Accounts registry := by
  obtain ⟨hvalid, rfl⟩ := resolve_eq_ok hresolve
  have hforest := (wellFormed_of_validate hvalid).forest
  exact ⟨hforest.allPlaced, hforest.accounts⟩

/-- Of the five primitives of the page only the title is rendered, at a distance of two. -/
theorem namelessPage_accounts : ∃ resolution, namelessPage.resolve (Config.withPolicy {} .deferToServe) = .ok resolution ∧
    resolution.stats = ⟨1, 5, 10, 5, 1, 2, 4⟩ ∧ namelessPage.AllPlaced ∧ resolution.Accounts namelessPage := by
  have hresolve : namelessPage.resolve (Config.withPolicy {} .deferToServe) =
      .ok (namelessPage.addTrees Resolution.empty namelessPage.roots) := resolve_deferToServe (by rfl) rfl
  obtain ⟨hplaced, haccounts⟩ := resolve_accounts hresolve
  exact ⟨_, hresolve, by rfl, hplaced, haccounts⟩

end Registry

end Prebake
