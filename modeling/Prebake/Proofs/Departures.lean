import Prebake.Proofs.Culprit

/-!
# What every visit leaves behind

The visit of a tree is made of the visits of all primitives in it, one within the other. Each of them leaves what is below
its primitive in order (`Departure.Orderly`): those are pending that are deferred, everything has been attempted, and what a
child defers is deferred by the first child that is deferred by then. So it is not only when a tree has been visited to its
root that no reason is out of date, but at the end of every single visit (`visits_leave_deferred`).
-/

namespace Prebake

open Relation

/-- The end of a visit: the primitive that was visited with all below it, those that the visit leaves pending, and what is
known then. -/
structure Departure where
  top : Primitive
  pending : List String
  progress : Progress

namespace Progress

/-- Whether a primitive is deferred, as far as is known. -/
def isDeferred (progress : Progress) (id : String) : Bool := (progress.reason? id).isSome

/-- The visit of a tree comes to its end. -/
def depart (registry : Registry) (progress : Progress) (tree : Tree) : Departure :=
  let (pending, last) := progress.visit registry tree
  ⟨tree.top, pending, last⟩

mutual

/-- The ends of all visits that the visit of a tree is made of, in their order. -/
def departures (registry : Registry) (progress : Progress) : Tree → List Departure
  | .node p children =>
    departuresAll registry progress children ++ [progress.depart registry (.node p children)]

/-- The ends of all visits that the visits of several trees are made of. -/
def departuresAll (registry : Registry) (progress : Progress) : List Tree → List Departure
  | [] => []
  | tree :: trees =>
    departures registry progress tree ++ departuresAll registry (progress.visit registry tree).2 trees

end

end Progress

/-- The ends of all visits in the tree below a root. -/
def Registry.departures (registry : Registry) (root : Primitive) : List Departure :=
  Progress.empty.departures registry (registry.tree root)

/-- A visit leaves everything below its primitive in order. -/
structure Departure.Orderly (registry : Registry) (d : Departure) : Prop where
  registered : d.top ∈ registry.primitives
  complete : (registry.tree d.top).Complete registry
  /-- In the tree of the primitive is whatever the lists of children lead down to from it. -/
  below : ∀ id, id ∈ (registry.tree d.top).ids ↔ ReflTransGen registry.Lists d.top.id id
  /-- Those are pending that are deferred, children before their parents. -/
  pending : d.pending = (registry.tree d.top).ids.filter d.progress.isDeferred
  nodup : d.pending.Nodup
  attempted : ∀ id ∈ (registry.tree d.top).ids, (d.progress.attempts.find? id).isSome = true
  /-- A child that is given as the reason is the first child that is deferred. -/
  reasons : ∀ p ∈ registry.primitives, p.id ∈ (registry.tree d.top).ids → ∀ child,
    d.progress.reason? p.id = some (.deferredChild child) → p.children.find? d.progress.isDeferred = some child

namespace Progress

variable {registry : Registry} {progress before : Progress} {tree : Tree} {above : List Primitive} {pending : List String}
  {id : String}

/-! ## One visit -/

/-- What has been attempted is deferred or has markup. -/
theorem isDeferred_of_attempt {attempt : Attempt} (h : progress.attempts.find? id = some attempt) :
    progress.isDeferred id = (progress.rendered? id).isNone := by
  rw [isDeferred, reason?, rendered?, h]
  cases attempt <;> rfl

namespace Visited

/-- Whatever a visit has come by is deferred or has markup. -/
theorem isDeferred_eq (h : Visited progress before tree pending) (hid : id ∈ tree.ids) :
    progress.isDeferred id = (progress.rendered? id).isNone := by
  obtain ⟨attempt, hattempt⟩ := Option.isSome_iff_exists.1 (h.isSome_find?_attempts hid)
  exact isDeferred_of_attempt hattempt

/-- The visit of a primitive with all below it leaves that in order. -/
theorem orderly {p : Primitive} (h : Visited progress before (registry.tree p) pending) (hforest : registry.IsForest)
    (hp : p ∈ registry.primitives) : Departure.Orderly registry ⟨p, pending, progress⟩ := by
  have hgrown := hforest.grown_tree_of_mem hp
  have hdeferred : ∀ id ∈ (registry.tree p).ids, progress.isDeferred id = (progress.rendered? id).isNone := fun id =>
    h.isDeferred_eq
  have hpending : pending = (registry.tree p).ids.filter progress.isDeferred :=
    h.pending.trans (List.filter_congr fun id hid => (hdeferred id hid).symm)
  constructor
  · exact hp
  · exact hgrown.complete
  · intro id
    refine ⟨fun hid => ?_, fun hdown => hgrown.mem_ids_of_reflTransGen ?_⟩
    · have hdown := hgrown.reflTransGen id hid
      rwa [Registry.tree_top] at hdown
    · rwa [Registry.tree_top]
  · exact hpending
  · rw [hpending]
    exact (hgrown.nodup_ids hforest).filter _
  · exact fun id => h.isSome_find?_attempts
  · intro q hq hid child hreason
    obtain ⟨r, way, hplace, hsame⟩ := Tree.exists_mem_places [] hid
    obtain rfl : r = q := Registry.eq_of_id_eq (hgrown.registered_of_mem_places hplace) hq hsame
    rw [← h.find?_children hgrown hplace hreason]
    exact List.find?_congr fun other hother => hdeferred other (hgrown.child_mem_ids hplace hother)

end Visited

/-- The visit of a whole tree that nothing is known of leaves it in order. -/
theorem orderly_depart (hforest : registry.IsForest) (hgrown : Tree.Grown registry above tree) (progress : Progress)
    (hfresh : ∀ id ∈ tree.ids, SameAt progress empty id) : (progress.depart registry tree).Orderly registry := by
  have htop : tree.top ∈ registry.primitives := hgrown.registered_of_mem_places (Tree.top_mem_places [] tree)
  -- a tree inside another one was grown with less depth left, but it leaves nothing out either
  have hsame : tree = registry.tree tree.top :=
    hgrown.complete.eq (hforest.complete_tree htop) (Registry.tree_top registry tree.top).symm
  have hvisited := visited_visit hforest hgrown progress hfresh
  rw [depart]
  generalize progress.visit registry tree = visited at hvisited
  rw [hsame] at hvisited
  exact hvisited.orderly hforest htop

/-! ## All visits -/

/-- Visits of several whole trees leave everything in order at all times, if the visit of each does. -/
theorem orderly_of_mem_departuresAll (hforest : registry.IsForest) {trees : List Tree}
    (hgrown : ∀ tree ∈ trees, Tree.Grown registry above tree) (hnodup : (trees.flatMap Tree.ids).Nodup)
    (hvisit : ∀ tree ∈ trees, ∀ before : Progress, (∀ id ∈ tree.ids, SameAt before empty id) →
      ∀ d ∈ before.departures registry tree, d.Orderly registry)
    (progress : Progress) (hfresh : ∀ id ∈ trees.flatMap Tree.ids, SameAt progress empty id) :
    ∀ d ∈ progress.departuresAll registry trees, d.Orderly registry := by
  induction trees generalizing progress with
  | nil => exact nofun
  | cons tree trees ih =>
    rw [List.flatMap_cons] at hnodup hfresh
    obtain ⟨-, hothers, hapart⟩ := List.nodup_append'.1 hnodup
    have hfreshFirst : ∀ id ∈ tree.ids, SameAt progress empty id := fun id hid => hfresh id (List.mem_append_left _ hid)
    have hfirst := visited_visit hforest (hgrown tree List.mem_cons_self) progress hfreshFirst
    have hmiddle := hfirst.sameAt_empty hapart fun id hid => hfresh id (List.mem_append_right _ hid)
    rw [departuresAll]
    exact List.forall_mem_append.2 ⟨hvisit tree List.mem_cons_self progress hfreshFirst,
      ih (fun other hother => hgrown other (List.mem_cons_of_mem _ hother)) hothers
        (fun other hother => hvisit other (List.mem_cons_of_mem _ hother)) _ hmiddle⟩

/-- All visits that the visit of a whole tree is made of leave everything below in order. -/
theorem orderly_of_mem_departures (hforest : registry.IsForest) (h : Tree.Grown registry above tree) (progress : Progress)
    (hfresh : ∀ id ∈ tree.ids, SameAt progress empty id) :
    ∀ d ∈ progress.departures registry tree, d.Orderly registry := by
  induction h generalizing progress with
  | @node p above children hlineage hids hbelow ih =>
    have hnode := Tree.Grown.node hlineage hids hbelow
    have hfreshBelow : ∀ id ∈ children.flatMap Tree.ids, SameAt progress empty id := fun id hid =>
      hfresh id (Tree.ids_node p children ▸ List.mem_append_left _ hid)
    rw [departures]
    refine List.forall_mem_append.2
      ⟨orderly_of_mem_departuresAll hforest hbelow (hnode.nodup_below hforest) ih progress hfreshBelow, fun d hd => ?_⟩
    rw [List.mem_singleton.1 hd]
    exact orderly_depart hforest hnode progress hfresh

mutual

/-- There is one visit for each primitive in a tree, children before their parents. -/
theorem map_top_departures (registry : Registry) (progress : Progress) :
    ∀ tree : Tree, (progress.departures registry tree).map (·.top.id) = tree.ids
  | .node p children => by
    rw [departures, List.map_append, map_top_departuresAll registry progress children, Tree.ids_node]
    rfl

/-- There is one visit for each primitive in several trees, tree after tree. -/
theorem map_top_departuresAll (registry : Registry) (progress : Progress) :
    ∀ trees : List Tree, (progress.departuresAll registry trees).map (·.top.id) = trees.flatMap Tree.ids
  | [] => rfl
  | tree :: trees => by
    rw [departuresAll, List.map_append, map_top_departures registry progress tree, map_top_departuresAll registry _ trees,
      List.flatMap_cons]

end

/-- The last of the visits is that of the whole tree. -/
theorem getLast?_departures (registry : Registry) (progress : Progress) (tree : Tree) :
    (progress.departures registry tree).getLast? = some (progress.depart registry tree) := by
  cases tree with
  | node p children => rw [departures, List.getLast?_concat]

end Progress

namespace Registry

variable {registry : Registry} {root p : Primitive}

/-- There is a visit of every primitive. -/
theorem IsForest.exists_departure (hforest : registry.IsForest)
    (horderly : ∀ root ∈ registry.roots, ∀ d ∈ registry.departures root, d.Orderly registry) (hp : p ∈ registry.primitives) :
    ∃ root ∈ registry.roots, ∃ d ∈ registry.departures root, d.top = p := by
  obtain ⟨root, hroot, hin⟩ := hforest.exists_root hp
  rw [← Progress.map_top_departures registry Progress.empty, List.mem_map] at hin
  obtain ⟨d, hd, hsame⟩ := hin
  exact ⟨root, hroot, d, hd, eq_of_id_eq (horderly root hroot d hd).registered hp hsame⟩

/-- At the end of every visit everything below is in order. In a valid registry there is one visit of each primitive, within the
visit of the tree of its root. When the visit of a primitive ends, those are pending that are deferred of what is below, each
once and children before their parents; all of it has been attempted; and a child that is given as a reason there is the first
child that is deferred. -/
theorem visits_leave_deferred (hvalid : registry.validate = .ok ()) :
    (∀ root ∈ registry.roots, (registry.departures root).map (·.top.id) = (registry.tree root).ids ∧
      (registry.departures root).getLast? = some ⟨root, (registry.visitTree root).1, (registry.visitTree root).2⟩) ∧
    (∀ p ∈ registry.primitives, ∃ root ∈ registry.roots, ∃ d ∈ registry.departures root, d.top = p) ∧
    ∀ root ∈ registry.roots, ∀ d ∈ registry.departures root, d.Orderly registry := by
  have hforest := (wellFormed_of_validate hvalid).forest
  have horderly : ∀ root ∈ registry.roots, ∀ d ∈ registry.departures root, d.Orderly registry := fun root hroot =>
    Progress.orderly_of_mem_departures hforest (hforest.grown_tree hroot) Progress.empty fun _ _ =>
      Progress.SameAt.refl _ _
  refine ⟨fun root _ => ⟨Progress.map_top_departures registry _ _, ?_⟩, fun p => hforest.exists_departure horderly, horderly⟩
  rw [departures, Progress.getLast?_departures, Progress.depart, tree_top]
  rfl

/-- When the visit of the box ends, the title is the reason why it is deferred; when that of the page ends, the title has been
rendered, and the greeting is the reason. -/
theorem namelessPage_leaves_deferred : namelessPage.validate = .ok () ∧
    (namelessPage.roots.flatMap namelessPage.departures).map (fun d => (d.top.id, d.pending, d.progress.reason? "box")) =
      [("title", ["title"], none), ("greeting", ["greeting"], none), ("hint", ["hint"], none),
        ("box", ["title", "greeting", "hint", "box"], some (.deferredChild "title")),
        ("page", ["greeting", "hint", "box", "page"], some (.deferredChild "greeting"))] ∧
    ∀ root ∈ namelessPage.roots, ∀ d ∈ namelessPage.departures root, d.Orderly namelessPage := by
  have hvalid : namelessPage.validate = .ok () := by rfl
  exact ⟨hvalid, by rfl, (visits_leave_deferred hvalid).2.2⟩

end Registry

end Prebake
