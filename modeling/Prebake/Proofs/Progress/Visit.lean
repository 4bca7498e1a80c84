import Prebake.Proofs.Progress.Settled

/-!
# What a visit settles

A visit of a whole tree touches nothing outside it, settles each of its primitives in the scope that reaches up to the
top of the tree, and leaves those pending that are still deferred (`visited_visit`).
-/

namespace Prebake

namespace Progress

open Relation

variable {registry : Registry} {progress before after : Progress} {p : Primitive} {above : List Primitive} {id : String}

/-! ## The first attempt -/

/-- The first attempt for a primitive changes nothing about another. -/
theorem sameAt_begin (progress : Progress) (p : Primitive) {other : String} (h : other ≠ p.id) :
    SameAt (progress.begin p) progress other := by
  have hsame := sameAt_evaluate progress [p.layer] h
  unfold begin
  dsimp only
  split
  · exact hsame
  · exact ⟨hsame.attempt, hsame.evaluations, hsame.distance⟩

/-- The first attempt is made in the own layer of the primitive. -/
theorem attempt_begin (progress : Progress) (p : Primitive) :
    (progress.begin p).attempts.find? p.id = some (progress.outcome p [p.layer]) := by
  unfold begin
  dsimp only
  split <;> exact attempt_evaluate progress p [p.layer]

theorem evaluationsOf_begin (progress : Progress) (p : Primitive) :
    (progress.begin p).evaluationsOf p.id = progress.evaluationsOf p.id + 1 := by
  unfold begin
  dsimp only
  split <;> exact evaluationsOf_evaluate progress p [p.layer]

/-- A first attempt bridges no distance. -/
theorem distances_begin (progress : Progress) (p : Primitive) : (progress.begin p).distances = progress.distances := by
  unfold begin
  dsimp only
  split <;> rfl

/-- A first attempt settles a primitive in its own layer, once its children have been tried in that layer. -/
theorem settled_begin (hfresh : SameAt progress empty p.id) (hself : p.id ∉ p.children)
    (hchildren : ∀ child ∈ p.children, progress.evaluationsOf child ≤ 2) : (progress.begin p).Settled p [p.layer] := by
  have hcount : (progress.begin p).evaluationsOf p.id = 1 := by
    rw [evaluationsOf_begin, hfresh.evaluationsOf]
    rfl
  have htrial : (progress.begin p).trial p [p.layer] 1 = progress.outcome p [p.layer] := by
    rw [trial, outcome, List.take_succ_cons, List.take_zero, List.map_congr_left]
    intro child hchild
    have hne : child ≠ p.id := fun same => hself (same ▸ hchild)
    have hsame := sameAt_begin progress p hne
    rw [renderedWithin?_of_le (hsame.evaluationsOf ▸ hchildren child hchild), hsame.rendered?]
  constructor
  · omega
  · rw [hcount, List.length_singleton]
  · rw [attempt_begin, hcount, htrial]
  · intro reach hone hlt
    omega
  · intro _
    rw [hcount, List.length_singleton]
  · rw [distances_begin, hfresh.distance, hcount, if_neg (by simp)]
    rfl

/-! ## Whole trees -/

/-- A tree was visited: nothing outside it was touched, each of its primitives is settled, and those are pending that
are deferred. -/
structure Visited (after before : Progress) (tree : Tree) (pending : List String) : Prop where
  others : ∀ id ∉ tree.ids, SameAt after before id
  settled : ∀ p way, (p, way) ∈ tree.places [] → after.Settled p ((p :: way).map Primitive.layer)
  pending : pending = tree.ids.filter fun id => (after.rendered? id).isNone

/-- Several trees were visited. -/
structure VisitedAll (after before : Progress) (trees : List Tree) (pending : List String) : Prop where
  others : ∀ id ∉ trees.flatMap Tree.ids, SameAt after before id
  settled : ∀ tree ∈ trees, ∀ p way, (p, way) ∈ tree.places [] → after.Settled p ((p :: way).map Primitive.layer)
  pending : pending = (trees.flatMap Tree.ids).filter fun id => (after.rendered? id).isNone

/-- Whatever is in a visited tree has been attempted. -/
theorem Visited.isSome_find?_attempts {tree : Tree} {pending : List String} (h : Visited after before tree pending)
    (hid : id ∈ tree.ids) : (after.attempts.find? id).isSome = true := by
  obtain ⟨p, way, hp, rfl⟩ := Tree.exists_mem_places [] hid
  rw [(h.settled p way hp).attempt]
  rfl

/-- Where nothing is known, nothing is known after the visit of a tree elsewhere. -/
theorem Visited.sameAt_empty {tree : Tree} {pending ids : List String} (h : Visited after before tree pending)
    (hapart : tree.ids.Disjoint ids) (hfresh : ∀ id ∈ ids, SameAt before empty id) : ∀ id ∈ ids, SameAt after empty id :=
  fun id hid => (h.others id fun hin => hapart hin hid).trans (hfresh id hid)

/-- A child was attempted at most once more than there are layers up from its parent. -/
theorem Visited.evaluationsOf_child_le {tree : Tree} {pending : List String} {way : List Primitive} {child : String}
    (h : Visited after before tree pending) (hgrown : Tree.Grown registry [] tree) (hp : (p, way) ∈ tree.places [])
    (hchild : child ∈ p.children) :
    after.evaluationsOf child ≤ ((p :: way).map Primitive.layer).length + 1 := by
  obtain ⟨c, hc, rfl⟩ := hgrown.exists_child_place hp hchild
  have hwithin := (h.settled c (p :: way) hc).within
  rwa [List.map_cons, List.length_cons] at hwithin

/-- If each of several trees without an id in common is visited, all of them are. -/
theorem visitedAll_visitAll {trees : List Tree} (hgrown : ∀ tree ∈ trees, Tree.Grown registry above tree)
    (hnodup : (trees.flatMap Tree.ids).Nodup)
    (hvisit : ∀ tree ∈ trees, ∀ before : Progress, (∀ id ∈ tree.ids, SameAt before empty id) →
      Visited (before.visit registry tree).2 before tree (before.visit registry tree).1)
    (progress : Progress) (hfresh : ∀ id ∈ trees.flatMap Tree.ids, SameAt progress empty id) :
    VisitedAll (progress.visitAll registry trees).2 progress trees (progress.visitAll registry trees).1 := by
  induction trees generalizing progress with
  | nil => exact ⟨fun _ _ => SameAt.refl _ _, nofun, rfl⟩
  | cons tree trees ih =>
    rw [List.flatMap_cons] at hnodup hfresh
    obtain ⟨-, hothers, hapart⟩ := List.nodup_append'.1 hnodup
    have hfirst := hvisit tree List.mem_cons_self progress fun id hid => hfresh id (List.mem_append_left _ hid)
    rw [visitAll]
    dsimp only
    generalize progress.visit registry tree = visited at hfirst
    obtain ⟨first, middle⟩ := visited
    have hmiddle := hfirst.sameAt_empty hapart fun id hid => hfresh id (List.mem_append_right _ hid)
    have hrest := ih (fun other hother => hgrown other (List.mem_cons_of_mem _ hother)) hothers
      (fun other hother => hvisit other (List.mem_cons_of_mem _ hother)) middle hmiddle
    generalize middle.visitAll registry trees = visited at hrest
    obtain ⟨others, last⟩ := visited
    -- the later trees have no id in common with the first one, so what it has settled stays
    have hkept : ∀ id ∈ tree.ids, SameAt last middle id := fun id hid => hrest.others id fun hin => hapart hid hin
    refine ⟨fun id hid => ?_, fun other hother p way hp => ?_, ?_⟩
    · rw [List.flatMap_cons, List.mem_append, not_or] at hid
      exact (hrest.others id hid.2).trans (hfirst.others id hid.1)
    · rcases List.mem_cons.1 hother with rfl | hother
      · refine (hfirst.settled p way hp).congr (hkept p.id (Tree.mem_ids_of_mem_places hp)) fun child hchild => ?_
        exact hkept child ((hgrown other List.mem_cons_self).child_mem_ids hp hchild)
      · exact hrest.settled other hother p way hp
    · have hsame : tree.ids.filter (fun id => (middle.rendered? id).isNone) =
          tree.ids.filter fun id => (last.rendered? id).isNone :=
        List.filter_congr fun id hid => by rw [(hkept id hid).rendered?]
      rw [List.flatMap_cons, List.filter_append, ← hsame, ← hfirst.pending, ← hrest.pending]

namespace VisitedAll

variable {trees : List Tree} {below : List String}

/-- After visits of several trees, those of their primitives are pending that are deferred. -/
theorem isPending (h : VisitedAll after before trees below) (hid : id ∈ trees.flatMap Tree.ids) :
    after.IsPending below id := by
  rw [IsPending, h.pending, List.mem_filter, Option.isNone_iff_eq_none]
  exact and_iff_right hid

/-- What visits leave pending stands in the order of the visits. -/
theorem sublist (h : VisitedAll after before trees below) : below.Sublist (trees.flatMap Tree.ids) := by
  rw [h.pending]
  exact List.filter_sublist

/-- After the trees below a primitive have been visited and what is pending has been retried, each primitive in them is
settled in the scope that reaches up to that primitive. -/
theorem settled_of_retried {last : Progress} (hforest : registry.IsForest) (h : VisitedAll after before trees below)
    (hgrown : ∀ tree ∈ trees, Tree.Grown registry (p :: above) tree)
    (hretried : Retried registry p.id last after below) {tree : Tree} (htree : tree ∈ trees) {q : Primitive}
    {way : List Primitive} (hq : (q, way) ∈ tree.places []) :
    last.Settled q ((q :: way).map Primitive.layer ++ [p.layer]) := by
  have hin : ∀ id ∈ tree.ids, id ∈ trees.flatMap Tree.ids := fun id hid => List.mem_flatMap.2 ⟨tree, htree, hid⟩
  have hwhole := hgrown tree htree
  refine (h.settled tree htree q way hq).of_retried hretried (hwhole.registered_of_mem_places hq)
    (Tree.Grown.scopeUpTo_of_mem_places hforest hwhole hq)
    (h.isPending (hin q.id (Tree.mem_ids_of_mem_places hq))) fun child hchild => ?_
  obtain ⟨c, hc, rfl⟩ := hwhole.exists_child_place hq hchild
  exact ⟨c, hwhole.registered_of_mem_places hc, rfl, h.isPending (hin c.id (Tree.mem_ids_of_mem_places hc)),
    h.settled tree htree c (q :: way) hc⟩

/-- Whatever is deferred after pending primitives were retried was pending before. -/
theorem filter_retried {last : Progress} {ancestor : String} (h : VisitedAll after before trees below)
    (hretried : Retried registry ancestor last after below) :
    (below.filter fun id => (last.rendered? id).isNone) =
      (trees.flatMap Tree.ids).filter fun id => (last.rendered? id).isNone := by
  conv_lhs => rw [h.pending]
  rw [List.filter_filter]
  refine List.filter_congr fun id hid => ?_
  by_cases hin : id ∈ below
  · rw [(h.isPending hid).1 hin]
    exact Bool.and_true _
  · have hsome : after.rendered? id ≠ none := fun hnone => hin ((h.isPending hid).2 hnone)
    rw [(hretried.others id hin).rendered?, Option.isNone_eq_false_iff.2 (Option.isSome_iff_ne_none.2 hsome)]
    rfl

section Top

variable {children : List Tree} {last : Progress}

/-- The first attempt for the top of a tree settles it, after what is below has been visited and retried. -/
theorem settled_top (hforest : registry.IsForest) (h : VisitedAll after before children below)
    (hnode : Tree.Grown registry above (.node p children)) (hretried : Retried registry p.id last after below)
    (hfresh : SameAt before empty p.id) : (last.begin p).Settled p [p.layer] := by
  obtain ⟨-, hapart⟩ := hnode.pairwise_below hforest
  cases hnode with
  | node _ hids hbelow =>
    have hlast := hretried.others p.id fun hin => hapart (h.sublist.subset hin)
    have hchildren : ∀ child ∈ p.children, ∃ tree ∈ children, tree.top.id = child := fun child hchild =>
      List.mem_map.1 (hids ▸ hchild)
    refine settled_begin (hlast.trans ((h.others p.id hapart).trans hfresh)) ?_ ?_
    · intro hself
      obtain ⟨tree, htree, hid⟩ := hchildren p.id hself
      exact hapart (List.mem_flatMap.2 ⟨tree, htree, hid ▸ Tree.top_mem_ids tree⟩)
    · intro child hchild
      obtain ⟨tree, htree, rfl⟩ := hchildren child hchild
      exact (h.settled_of_retried hforest hbelow hretried htree (Tree.top_mem_places [] tree)).within

/-- The first attempt for the top of a tree completes the visit, after what is below has been visited and retried. -/
theorem visited_begin {pending : List String} (hforest : registry.IsForest) (h : VisitedAll after before children below)
    (hnode : Tree.Grown registry above (.node p children)) (hretried : Retried registry p.id last after below)
    (hpending : pending = (children.flatMap Tree.ids).filter fun id => (last.rendered? id).isNone)
    (hfresh : SameAt before empty p.id) :
    Visited (last.begin p) before (.node p children)
      (if ((last.begin p).rendered? p.id).isSome then pending else pending ++ [p.id]) := by
  have htop := h.settled_top hforest hnode hretried hfresh
  obtain ⟨-, hapart⟩ := hnode.pairwise_below hforest
  -- the first attempt for the top changes nothing about what is below
  have hkept : ∀ id ∈ children.flatMap Tree.ids, SameAt (last.begin p) last id := fun id hid =>
    sameAt_begin last p fun same => hapart (same ▸ hid)
  cases hnode with
  | node _ _ hbelow =>
    refine ⟨fun id hid => ?_, fun q way hq => ?_, ?_⟩
    · rw [Tree.ids_node, List.mem_append, List.mem_singleton, not_or] at hid
      have hlast := hretried.others id fun hin => hid.1 (h.sublist.subset hin)
      exact (sameAt_begin last p hid.2).trans (hlast.trans (h.others id hid.1))
    · rw [Tree.places_node, List.mem_append, List.mem_flatMap, List.mem_singleton] at hq
      rcases hq with ⟨tree, htree, hq⟩ | hq
      · obtain ⟨inner, hplace, rfl⟩ := Tree.mem_places_iff.1 hq
        have hin : ∀ id ∈ tree.ids, SameAt (last.begin p) last id := fun id hid =>
          hkept id (List.mem_flatMap.2 ⟨tree, htree, hid⟩)
        have hsettled := h.settled_of_retried hforest hbelow hretried htree hplace
        rw [← List.cons_append, List.map_append]
        refine hsettled.congr (hin q.id (Tree.mem_ids_of_mem_places hplace)) fun child hchild => ?_
        exact hin child ((hbelow tree htree).child_mem_ids hplace hchild)
      · cases hq
        exact htop
    · have hsame : (children.flatMap Tree.ids).filter (fun id => ((last.begin p).rendered? id).isNone) = pending := by
        rw [hpending]
        exact List.filter_congr fun id hid => by rw [(hkept id hid).rendered?]
      rw [Tree.ids_node, List.filter_append, hsame, List.filter_singleton]
      cases (last.begin p).rendered? p.id <;> simp

end Top

end VisitedAll

/-- A visit of a whole tree does what `Visited` says. -/
theorem visited_visit (hforest : registry.IsForest) {tree : Tree} (h : Tree.Grown registry above tree)
    (progress : Progress) (hfresh : ∀ id ∈ tree.ids, SameAt progress empty id) :
    Visited (progress.visit registry tree).2 progress tree (progress.visit registry tree).1 := by
  induction h generalizing progress with
  | @node p above children hlineage hids hbelow ih =>
    have hnode := Tree.Grown.node hlineage hids hbelow
    obtain ⟨horder, -⟩ := hnode.pairwise_below hforest
    have hnodup := hnode.nodup_below hforest
    rw [Tree.ids_node] at hfresh
    have hall := visitedAll_visitAll hbelow hnodup ih progress fun id hid => hfresh id (List.mem_append_left _ hid)
    rw [visit]
    dsimp only
    generalize progress.visitAll registry children = visited at hall
    obtain ⟨below, middle⟩ := visited
    have hretried : Retried registry p.id (middle.retryAll registry p.id below).2 middle below :=
      retried_retryAll hforest middle (horder.sublist hall.sublist)
    have hpending := retryAll_fst registry p.id (hnodup.sublist hall.sublist) middle
    rw [hall.filter_retried hretried] at hpending
    exact hall.visited_begin hforest hnode hretried hpending
      (hfresh p.id (List.mem_append_right _ (List.mem_singleton_self _)))

/-- Visits of several whole trees without an id in common do what `VisitedAll` says. -/
theorem visitedAll_of_grown (hforest : registry.IsForest) {trees : List Tree}
    (hgrown : ∀ tree ∈ trees, Tree.Grown registry above tree) (hnodup : (trees.flatMap Tree.ids).Nodup)
    (progress : Progress) (hfresh : ∀ id ∈ trees.flatMap Tree.ids, SameAt progress empty id) :
    VisitedAll (progress.visitAll registry trees).2 progress trees (progress.visitAll registry trees).1 :=
  visitedAll_visitAll hgrown hnodup (fun tree htree before hfresh => visited_visit hforest (hgrown tree htree) before hfresh)
    progress hfresh

/-- Before the first attempt for the top of a whole tree, the trees below it have been visited, and what is pending there has
been retried. -/
theorem visitedAll_and_retried (hforest : registry.IsForest) {children : List Tree}
    (hnode : Tree.Grown registry above (.node p children)) (progress : Progress)
    (hfresh : ∀ id ∈ children.flatMap Tree.ids, SameAt progress empty id) :
    VisitedAll (progress.visitAll registry children).2 progress children (progress.visitAll registry children).1 ∧
      Retried registry p.id
        ((progress.visitAll registry children).2.retryAll registry p.id (progress.visitAll registry children).1).2
        (progress.visitAll registry children).2 (progress.visitAll registry children).1 := by
  obtain ⟨horder, -⟩ := hnode.pairwise_below hforest
  have hnodup := hnode.nodup_below hforest
  cases hnode with
  | node _ _ hbelow =>
    have hall := visitedAll_of_grown hforest hbelow hnodup progress hfresh
    exact ⟨hall, retried_retryAll hforest _ (horder.sublist hall.sublist)⟩

end Progress

end Prebake
