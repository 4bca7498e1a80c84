import Mathlib.Computability.StateTransition
import Prebake.Proofs.Resolution

/-!
# Where climbs end

A scope is widened, and a distance counted, in loops that go from a primitive to its parent and so on, until they come to an
ancestor or find no parent. Nothing in such a loop gets visibly smaller: that it ends, and where, rests on what is known of a
forest, whose lists of children lead down where the parents lead up. The loops are stated as transitions here, one round at a
time, and run to completion (`StateTransition.eval`). In a valid registry each of them ends at the ancestor if it is above the
primitive, and at the root if it is not; and what has been collected by then is what `Registry.scopeUpTo` and
`Registry.distance` give, whose bounds cut nothing off (`climbs_end`).
-/

namespace Prebake

open Relation StateTransition

namespace Registry

/-! ## The loops -/

/-- One round of widening a scope up to an ancestor; beside the scope stands the primitive that its outermost layer belongs
to. -/
def widen? (registry : Registry) (ancestor : String) : Scope × Primitive → Option (Scope × Primitive)
  | (scope, current) =>
    if current.id = ancestor then none
    else (registry.parentOf? current).map fun parent => (scope.pushOuter parent.layer, parent)

/-- One round of counting the steps up to an ancestor; beside the count stands the primitive to look at next, if there is
one. -/
def countUp? (registry : Registry) (ancestor : String) : Nat × Option Primitive → Option (Nat × Option Primitive)
  | (_, none) => none
  | (count, some current) =>
    if current.id = ancestor then none else some (count + 1, registry.parentOf? current)

variable {registry : Registry} {ancestor : String} {p a last : Primitive} {way : List Primitive}

/-- A scope is widened by the layer of whatever the climb comes to next. -/
theorem widen?_eq (registry : Registry) (ancestor : String) (scope : Scope) (p : Primitive) :
    registry.widen? ancestor (scope, p) =
      (registry.climb? ancestor p).map fun parent => (scope.pushOuter parent.layer, parent) := by
  rw [widen?, climb?]
  split <;> rfl

namespace Climb

/-- A climb goes from each primitive to its parent. -/
theorem isLineage (h : registry.Climb ancestor p way last) (hp : p ∈ registry.primitives) :
    registry.IsLineage (p :: way) := by
  induction h with
  | ends _ => exact ⟨fun q hq => List.mem_singleton.1 hq ▸ hp, List.isChain_singleton _⟩
  | up hnext _ ih =>
    obtain ⟨-, hparent⟩ := climb?_eq_some_iff.1 hnext
    have habove := ih (parentOf?_eq_some_iff.1 hparent).1
    refine ⟨fun q hq => ?_, List.isChain_cons_cons.2 ⟨hparent, habove.parents⟩⟩
    rcases List.mem_cons.1 hq with rfl | hq
    · exact hp
    · exact habove.registered q hq

/-- The last primitive of a climb is where it ends. -/
theorem getLast? (h : registry.Climb ancestor p way last) : (p :: way).getLast? = some last := by
  induction h with
  | ends _ => rfl
  | up _ _ ih => rw [List.getLast?_cons_cons, ih]

/-- A climb that does not end at the ancestor does not come by it. -/
theorem id_ne (h : registry.Climb ancestor p way last) (hlast : last.id ≠ ancestor) : ∀ q ∈ p :: way, q.id ≠ ancestor := by
  induction h with
  | ends _ =>
    intro q hq
    rwa [List.mem_singleton.1 hq]
  | up hnext _ ih => exact List.forall_mem_cons.2 ⟨(climb?_eq_some_iff.1 hnext).1, ih hlast⟩

/-- Widening a scope goes where the climb goes, and ends with it. -/
theorem eval_widen? (h : registry.Climb ancestor p way last) (scope : Scope) :
    (scope ++ way.map Primitive.layer, last) ∈ eval (registry.widen? ancestor) (scope, p) := by
  induction h generalizing scope with
  | ends hends =>
    refine mem_eval.2 ⟨?_, by rw [widen?_eq, hends]; rfl⟩
    rw [List.map_nil, List.append_nil]
    exact ReflTransGen.refl
  | @up p parent last way hnext _ ih =>
    have hround : registry.widen? ancestor (scope, p) = some (scope.pushOuter parent.layer, parent) := by
      rw [widen?_eq, hnext]
      rfl
    have hrest := ih (scope.pushOuter parent.layer)
    rw [Scope.pushOuter, List.append_assoc] at hrest
    rw [reaches_eval (ReflTransGen.single hround)]
    exact hrest

/-- Counting goes where the climb goes. It ends with it at the ancestor, and else one round later. -/
theorem eval_countUp? (h : registry.Climb ancestor p way last) (count : Nat) :
    (if last.id = ancestor then (count + way.length, some last) else (count + way.length + 1, none)) ∈
      eval (registry.countUp? ancestor) (count, some p) := by
  induction h generalizing count with
  | @ends p hends =>
    split
    · rename_i hreached
      exact mem_eval.2 ⟨ReflTransGen.refl, if_pos hreached⟩
    · rename_i hother
      have hround : registry.countUp? ancestor (count, some p) = some (count + 1, none) := by
        rw [countUp?, if_neg hother, (climb?_eq_none_iff.1 hends).resolve_left hother]
      exact mem_eval.2 ⟨ReflTransGen.single hround, rfl⟩
  | @up p parent last way hnext _ ih =>
    obtain ⟨hother, hparent⟩ := climb?_eq_some_iff.1 hnext
    have hround : registry.countUp? ancestor (count, some p) = some (count + 1, some parent) := by
      rw [countUp?, if_neg hother, hparent]
    rw [reaches_eval (ReflTransGen.single hround), List.length_cons, ← Nat.add_assoc, Nat.add_right_comm]
    exact ih (count + 1)

end Climb

/-! ## Climbs in a forest -/

/-- From a primitive there is a climb to any that it is below, if nothing in between is the ancestor and there is no next one
after that. -/
theorem IsForest.exists_climb (hforest : registry.IsForest) (hlast : last ∈ registry.primitives)
    (hends : registry.climb? ancestor last = none) (hdown : ReflTransGen registry.Lists last.id p.id)
    (hp : p ∈ registry.primitives)
    (hopen : ∀ id, TransGen registry.Lists last.id id → ReflTransGen registry.Lists id p.id → id ≠ ancestor) :
    ∃ way, registry.Climb ancestor p way last := by
  -- by induction on the steps down from the last one, each of which the climb takes back
  generalize hid : p.id = id at hdown hopen
  induction hdown generalizing p with
  | refl =>
    obtain rfl := eq_of_id_eq hp hlast hid
    exact ⟨[], .ends hends⟩
  | @tail b c hdown hlists ih =>
    obtain ⟨q, hq, rfl, hchild⟩ := hlists
    rw [← hid] at hchild
    have hparent : registry.parentOf? p = some q :=
      parentOf?_eq_some_iff.2 ⟨hq, (hforest.lists_iff q hq p hp).1 hchild⟩
    have hlists : registry.Lists q.id c := ⟨q, hq, rfl, hid ▸ hchild⟩
    obtain ⟨way, hclimb⟩ := ih hq rfl fun id habove hbelow => hopen id habove (hbelow.tail hlists)
    have hother : p.id ≠ ancestor := by
      rw [hid]
      exact hopen c (TransGen.tail' hdown hlists) ReflTransGen.refl
    exact ⟨q :: way, .up (climb?_eq_some_iff.2 ⟨hother, hparent⟩) hclimb⟩

/-- A climb comes to an ancestor that is above. -/
theorem IsForest.exists_climb_of_above (hforest : registry.IsForest) (ha : a ∈ registry.primitives)
    (hp : p ∈ registry.primitives) (hdown : ReflTransGen registry.Lists a.id p.id) :
    ∃ way, registry.Climb a.id p way a := by
  refine hforest.exists_climb ha (climb?_eq_none_iff.2 (Or.inl rfl)) hdown hp ?_
  rintro _ hcycle - rfl
  exact hforest.acyclic _ hcycle

/-- A climb to an ancestor that is not above comes to a root, which is another one. -/
theorem IsForest.exists_climb_of_not_above (hforest : registry.IsForest) (hp : p ∈ registry.primitives)
    (hother : ¬ReflTransGen registry.Lists ancestor p.id) :
    ∃ root ∈ registry.roots, root.id ≠ ancestor ∧ ∃ way, registry.Climb ancestor p way root := by
  obtain ⟨root, hroot, hin⟩ := hforest.exists_root hp
  obtain ⟨hregistered, hnone⟩ := List.mem_filter.1 hroot
  have hdown := (hforest.grown_tree hroot).reflTransGen p.id hin
  rw [tree_top] at hdown
  have hparent : registry.parentOf? root = none := by
    rw [Primitive.isRoot, Option.isNone_iff_eq_none] at hnone
    rw [parentOf?, hnone, Option.bind_none]
  refine ⟨root, hroot, fun same => hother (same ▸ hdown), ?_⟩
  refine hforest.exists_climb hregistered (climb?_eq_none_iff.2 (Or.inr hparent)) hdown hp ?_
  rintro _ - hbelow rfl
  exact hother hbelow

/-- What comes of a climb from a primitive to the last one above it: the way is the way up, and widening the scope ends there,
with the layers on the way. -/
structure ClimbsTo (registry : Registry) (ancestor : String) (p : Primitive) (way : List Primitive) (last : Primitive) :
    Prop where
  lineage : registry.IsLineage (p :: way)
  ends : (p :: way).getLast? = some last
  widened : ((p :: way).map Primitive.layer, last) ∈ eval (registry.widen? ancestor) ([p.layer], p)
  scope : registry.scopeUpTo p ancestor = (p :: way).map Primitive.layer
  owners : (registry.scopeUpTo p ancestor).owners = (p :: way).map (·.id)
  nodup : (registry.scopeUpTo p ancestor).owners.Nodup

namespace Climb

/-- A climb comes to no primitive twice. -/
theorem length_lt (h : registry.Climb ancestor p way last) (hforest : registry.IsForest) (hp : p ∈ registry.primitives) :
    way.length < registry.size := (h.isLineage hp).length_le hforest

/-- A climb gives the loops their ends, and bounded ways up their result. -/
theorem climbsTo (h : registry.Climb ancestor p way last) (hforest : registry.IsForest) (hp : p ∈ registry.primitives) :
    registry.ClimbsTo ancestor p way last := by
  have hlineage := h.isLineage hp
  have hscope := h.scopeUpTo_eq (h.length_lt hforest hp)
  have howners : (registry.scopeUpTo p ancestor).owners = (p :: way).map (·.id) := by
    rw [hscope, Scope.owners, List.map_map]
    rfl
  exact ⟨hlineage, h.getLast?, h.eval_widen? [p.layer], hscope, howners, howners ▸ hlineage.nodup hforest⟩

end Climb

/-- Climbs end at the right place. From every primitive to every one above it, the widening of its scope ends because it has
come to that one; the owners of the layers are the ids on the way up to it, without repetition, and the distance, at which
counting ends there too, is one less than their number. Where an ancestor is not above, both loops end as well: the widening
at the root, the counting one round later, when there is nothing to look at any more. -/
theorem climbs_end (hvalid : registry.validate = .ok ()) :
    (∀ a ∈ registry.primitives, ∀ p ∈ registry.primitives, ReflTransGen registry.Lists a.id p.id →
      (∃ way, registry.ClimbsTo a.id p way a) ∧
      (registry.distance p.id a.id, some a) ∈ eval (registry.countUp? a.id) (0, registry.find? p.id) ∧
      registry.distance p.id a.id + 1 = (registry.scopeUpTo p a.id).owners.length) ∧
    ∀ p ∈ registry.primitives, ∀ ancestor, ¬ReflTransGen registry.Lists ancestor p.id →
      (∃ root ∈ registry.roots, ∃ way, registry.ClimbsTo ancestor p way root ∧ ∀ q ∈ p :: way, q.id ≠ ancestor) ∧
      (registry.distance p.id ancestor, none) ∈ eval (registry.countUp? ancestor) (0, registry.find? p.id) ∧
      registry.distance p.id ancestor = (registry.scopeUpTo p ancestor).owners.length := by
  have hforest := (wellFormed_of_validate hvalid).forest
  constructor
  · intro a ha p hp hdown
    obtain ⟨way, hclimb⟩ := hforest.exists_climb_of_above ha hp hdown
    have hends := hclimb.climbsTo hforest hp
    have hdistance := hclimb.distance_eq hp (hclimb.length_lt hforest hp)
    have hcount := hclimb.eval_countUp? 0
    rw [if_pos rfl] at hdistance hcount
    rw [hdistance, find?_of_mem hp, hends.owners, List.length_map, List.length_cons]
    rw [Nat.zero_add] at hcount
    exact ⟨⟨way, hends⟩, hcount, rfl⟩
  · intro p hp ancestor hother
    obtain ⟨root, hroot, hne, way, hclimb⟩ := hforest.exists_climb_of_not_above hp hother
    have hends := hclimb.climbsTo hforest hp
    have hdistance := hclimb.distance_eq hp (hclimb.length_lt hforest hp)
    have hcount := hclimb.eval_countUp? 0
    rw [if_neg hne] at hdistance hcount
    rw [hdistance, find?_of_mem hp, hends.owners, List.length_map, List.length_cons]
    rw [Nat.zero_add] at hcount
    exact ⟨⟨root, hroot, way, hends, hclimb.id_ne hne⟩, hcount, rfl⟩

/-- The greeting is two steps below the page, and beside the hint. -/
theorem namelessPage_climbs_end : namelessPage.validate = .ok () ∧
    ∃ page ∈ namelessPage.primitives, ∃ greeting ∈ namelessPage.primitives, page.id = "page" ∧ greeting.id = "greeting" ∧
      ReflTransGen namelessPage.Lists page.id greeting.id ∧ ¬ReflTransGen namelessPage.Lists "hint" greeting.id ∧
      (∃ way, namelessPage.ClimbsTo page.id greeting way page) ∧
      (namelessPage.scopeUpTo greeting page.id).owners = ["greeting", "box", "page"] ∧
      namelessPage.distance greeting.id page.id + 1 = (namelessPage.scopeUpTo greeting page.id).owners.length ∧
      (∃ root ∈ namelessPage.roots, ∃ way, namelessPage.ClimbsTo "hint" greeting way root) ∧
      namelessPage.distance greeting.id "hint" = (namelessPage.scopeUpTo greeting "hint").owners.length := by
  have hvalid : namelessPage.validate = .ok () := by rfl
  obtain ⟨page, hpage, hpageId, -⟩ := exists_find?_of_mem_ids (by decide : "page" ∈ namelessPage.ids)
  obtain ⟨greeting, hgreeting, hid, hfound⟩ := exists_find?_of_mem_ids (by decide : "greeting" ∈ namelessPage.ids)
  have hdown : ReflTransGen namelessPage.Lists page.id greeting.id := by
    rw [hpageId, hid]
    exact (ReflTransGen.single (mem_childIds.1 (by decide : "box" ∈ namelessPage.childIds "page"))).tail
      (mem_childIds.1 (by decide))
  have hbeside : ¬ReflTransGen namelessPage.Lists "hint" greeting.id := by
    intro h
    rw [hid] at h
    rcases ReflTransGen.cases_head h with hsame | ⟨child, hlists, -⟩
    · exact absurd hsame (by decide)
    · exact absurd (mem_childIds.2 hlists) List.not_mem_nil
  have howners : (namelessPage.scopeUpTo greeting page.id).owners = ["greeting", "box", "page"] := by
    rw [hpageId]
    cases hfound
    rfl
  obtain ⟨hway, -, hdistance⟩ := (climbs_end hvalid).1 page hpage greeting hgreeting hdown
  obtain ⟨⟨root, hroot, way, hends, -⟩, -, hout⟩ := (climbs_end hvalid).2 greeting hgreeting "hint" hbeside
  exact ⟨hvalid, page, hpage, greeting, hgreeting, hpageId, hid, hdown, hbeside, hway, howners, hdistance,
    ⟨root, hroot, way, hends⟩, hout⟩

end Registry

end Prebake
