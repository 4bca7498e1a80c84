import Prebake.Proofs.Progress.Visit

/-!
# How many primitives were deferred at first

A visit counts the primitives that were not rendered in their own scope. Retrying them later does not change who they are:
what is rendered then has been attempted more than once (`deferrals_visit`).
-/

namespace Prebake

namespace Progress

variable {registry : Registry} {progress before after : Progress} {p : Primitive} {above : List Primitive} {tree : Tree}
  {ancestor id : String}

/-! ## Single steps -/

/-- A primitive that is retried has been counted before. -/
theorem deferrals_retry (registry : Registry) (ancestor : String) (progress : Progress) (id : String) :
    (progress.retry registry ancestor id).deferrals = progress.deferrals := by
  unfold retry
  split
  · rfl
  · split
    · rfl
    · dsimp only
      split <;> rfl

/-- Retrying all pending primitives leaves the count as it is. -/
theorem deferrals_retryAll (registry : Registry) (ancestor : String) (progress : Progress) (pending : List String) :
    (progress.retryAll registry ancestor pending).2.deferrals = progress.deferrals := by
  induction pending generalizing progress with
  | nil => rfl
  | cons id pending ih => exact (ih _).trans (deferrals_retry registry ancestor progress id)

/-- The first attempt counts unless it gives markup. -/
theorem deferrals_begin (progress : Progress) (p : Primitive) : (progress.begin p).deferrals =
    progress.deferrals + if ((progress.begin p).rendered? p.id).isNone then 1 else 0 := by
  have hrendered : (progress.begin p).rendered? p.id = (progress.evaluate p [p.layer]).rendered? p.id := by
    rw [rendered?, rendered?, attempt_begin, attempt_evaluate]
  rw [hrendered, begin]
  cases (progress.evaluate p [p.layer]).rendered? p.id <;> rfl

/-- Retrying does not make a primitive one that was rendered at its first attempt. -/
theorem VisitedAll.renderedWithin?_one {trees : List Tree} {below : List String} {last : Progress}
    (h : VisitedAll after before trees below) (hgrown : ∀ tree ∈ trees, Tree.Grown registry above tree)
    (hretried : Retried registry ancestor last after below) (hid : id ∈ trees.flatMap Tree.ids) :
    last.renderedWithin? 1 id = after.renderedWithin? 1 id := by
  obtain ⟨tree, htree, hin⟩ := List.mem_flatMap.1 hid
  obtain ⟨c, way, hc, rfl⟩ := Tree.exists_mem_places [] hin
  refine renderedWithin?_of_retried hretried ((hgrown tree htree).registered_of_mem_places hc) (h.isPending hid)
    (h.settled tree htree c way hc) ?_
  rw [List.map_cons, List.length_cons]
  exact Nat.succ_le_succ (Nat.zero_le _)

/-! ## Visits -/

/-- Visiting several trees counts what visiting each of them counts. -/
theorem deferrals_visitAll (hforest : registry.IsForest) {trees : List Tree}
    (hgrown : ∀ tree ∈ trees, Tree.Grown registry above tree) (hnodup : (trees.flatMap Tree.ids).Nodup)
    (hvisit : ∀ tree ∈ trees, ∀ before : Progress, (∀ id ∈ tree.ids, SameAt before empty id) →
      (before.visit registry tree).2.deferrals = before.deferrals +
        tree.ids.countP fun id => ((before.visit registry tree).2.renderedWithin? 1 id).isNone)
    (progress : Progress) (hfresh : ∀ id ∈ trees.flatMap Tree.ids, SameAt progress empty id) :
    (progress.visitAll registry trees).2.deferrals = progress.deferrals +
      (trees.flatMap Tree.ids).countP fun id => ((progress.visitAll registry trees).2.renderedWithin? 1 id).isNone := by
  induction trees generalizing progress with
  | nil => rfl
  | cons tree trees ih =>
    rw [List.flatMap_cons] at hnodup hfresh
    obtain ⟨-, hothers, hapart⟩ := List.nodup_append'.1 hnodup
    have hfreshFirst : ∀ id ∈ tree.ids, SameAt progress empty id := fun id hid => hfresh id (List.mem_append_left _ hid)
    have hfirst := visited_visit hforest (hgrown tree List.mem_cons_self) progress hfreshFirst
    have hmiddle := hfirst.sameAt_empty hapart fun id hid => hfresh id (List.mem_append_right _ hid)
    have hgrownRest : ∀ other ∈ trees, Tree.Grown registry above other := fun other hother =>
      hgrown other (List.mem_cons_of_mem _ hother)
    have hrest := visitedAll_of_grown hforest hgrownRest hothers _ hmiddle
    have hkept : tree.ids.countP (fun id => ((progress.visit registry tree).2.renderedWithin? 1 id).isNone) =
        tree.ids.countP fun id =>
          (((progress.visit registry tree).2.visitAll registry trees).2.renderedWithin? 1 id).isNone :=
      List.countP_congr fun id hid => by rw [renderedWithin?_congr (hrest.others id (hapart hid)) 1]
    have hcount := ih hgrownRest hothers (fun other hother => hvisit other (List.mem_cons_of_mem _ hother)) _ hmiddle
    rw [hvisit tree List.mem_cons_self progress hfreshFirst, hkept, Nat.add_assoc, ← List.countP_append] at hcount
    exact hcount

/-- A visit counts the primitives of the tree that were not rendered at their first attempt. -/
theorem deferrals_visit (hforest : registry.IsForest) (h : Tree.Grown registry above tree) (progress : Progress)
    (hfresh : ∀ id ∈ tree.ids, SameAt progress empty id) :
    (progress.visit registry tree).2.deferrals = progress.deferrals +
      tree.ids.countP fun id => ((progress.visit registry tree).2.renderedWithin? 1 id).isNone := by
  induction h generalizing progress with
  | @node p above children hlineage hids hbelow ih =>
    have hnode := Tree.Grown.node hlineage hids hbelow
    obtain ⟨-, hapart⟩ := hnode.pairwise_below hforest
    rw [Tree.ids_node] at hfresh ⊢
    have hfreshBelow : ∀ id ∈ children.flatMap Tree.ids, SameAt progress empty id := fun id hid =>
      hfresh id (List.mem_append_left _ hid)
    have hfreshTop := hfresh p.id (List.mem_append_right _ (List.mem_singleton_self _))
    obtain ⟨hall, hretried⟩ := visitedAll_and_retried hforest hnode progress hfreshBelow
    have hcount := deferrals_visitAll hforest hbelow (hnode.nodup_below hforest) ih progress hfreshBelow
    rw [visit]
    dsimp only
    generalize progress.visitAll registry children = visited at hall hretried hcount
    obtain ⟨below, middle⟩ := visited
    have hkept := deferrals_retryAll registry p.id middle below
    dsimp only at hall hretried hcount
    generalize (middle.retryAll registry p.id below).2 = last at hretried hkept
    have htop : (last.begin p).renderedWithin? 1 p.id = (last.begin p).rendered? p.id :=
      renderedWithin?_of_le (hall.settled_top hforest hnode hretried hfreshTop).within
    have hbelowKept : (children.flatMap Tree.ids).countP (fun id => (middle.renderedWithin? 1 id).isNone) =
        (children.flatMap Tree.ids).countP fun id => ((last.begin p).renderedWithin? 1 id).isNone := by
      refine List.countP_congr fun id hid => ?_
      rw [renderedWithin?_congr (sameAt_begin last p fun same => hapart (same ▸ hid)) 1,
        hall.renderedWithin?_one hbelow hretried hid]
    rw [deferrals_begin, hkept, hcount, List.countP_append, List.countP_singleton, htop, hbelowKept, Nat.add_assoc]

end Progress

end Prebake
