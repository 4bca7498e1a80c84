import Mathlib.Data.List.Chain
import Mathlib.Data.List.Perm.Subperm
import Mathlib.Data.List.TakeWhile
import Prebake.Proofs.Registry.Lookup

/-!
# The search for cycles

The depth-first search keeps two promises. What it reports is a cycle of the lists of children (`IsCycle`). And what it
has finished is in order (`Finished`): from a finished primitive a child leads to one finished before it, unless that
step closes a reported cycle. So the steps that close no reported cycle run down the order of finishing, and without
reports there is no cycle at all.
-/

namespace Prebake

namespace Registry

open Relation

/-- A way is a list of ids, given from its end to its beginning, in which each id is listed by the one after it. -/
abbrev IsWay (registry : Registry) (way : List String) : Prop :=
  way.IsChain fun child parent => registry.Lists parent child

/-- A cycle is written with the id that it starts from once more at its end. -/
structure IsCycle (registry : Registry) (cycle : List String) : Prop where
  closed : ∃ (start : String) (rest : List String), cycle = start :: (rest ++ [start]) ∧ (start :: rest).Nodup
  lists : cycle.IsChain registry.Lists

/-- A reported cycle is closed by the step from one id to another. -/
def ClosedBy (cycles : List (List String)) (parent child : String) : Prop :=
  ∃ front, front ++ [parent, child] ∈ cycles

/-- The finished primitives, the latest first: each child of one of them was finished before it, or closes a cycle. -/
def Finished (registry : Registry) (cycles : List (List String)) : List String → Prop
  | [] => True
  | id :: before =>
    (∀ child, registry.Lists id child → child ∈ before ∨ ClosedBy cycles id child) ∧ Finished registry cycles before

variable {registry : Registry} {cycles : List (List String)} {done : List String}

/-! ## What a cycle is worth -/

/-- A chain of steps leads from its first id to its last. -/
theorem reflTransGen_of_isChain {R : String → String → Prop} {first last : String} {middle : List String}
    (h : (first :: (middle ++ [last])).IsChain R) : TransGen R first last := by
  induction middle generalizing first with
  | nil => exact TransGen.single (List.isChain_cons_cons.1 h).1
  | cons next middle ih =>
    obtain ⟨hstep, hrest⟩ := List.isChain_cons_cons.1 h
    exact TransGen.head hstep (ih hrest)

/-- A cycle leads from its start back to it. -/
theorem IsCycle.transGen {cycle : List String} (h : registry.IsCycle cycle) :
    ∃ start, TransGen registry.Lists start start := by
  obtain ⟨start, rest, rfl, -⟩ := h.closed
  exact ⟨start, reflTransGen_of_isChain h.lists⟩

/-- A step out of finished primitives that closes no reported cycle stays among them. -/
theorem Finished.mem_of_lists (h : registry.Finished cycles done) {id child : String} (hid : id ∈ done)
    (hchild : registry.Lists id child) (hopen : ¬ClosedBy cycles id child) : child ∈ done := by
  induction done with
  | nil => cases hid
  | cons latest before ih =>
    rcases List.mem_cons.1 hid with rfl | hid
    · exact List.mem_cons_of_mem _ ((h.1 child hchild).resolve_right hopen)
    · exact List.mem_cons_of_mem _ (ih h.2 hid)

/-- So do any number of such steps. -/
theorem Finished.mem_of_reflTransGen (h : registry.Finished cycles done) {id reached : String} (hid : id ∈ done)
    (hsteps : ReflTransGen (fun a b => registry.Lists a b ∧ ¬ClosedBy cycles a b) id reached) : reached ∈ done := by
  induction hsteps with
  | refl => exact hid
  | tail _ hbc ih => exact h.mem_of_lists ih hbc.1 hbc.2

/-- No finished primitive is on a cycle of steps that close no reported cycle: its children were finished before it, and
from them the steps lead to what was finished still earlier. -/
theorem Finished.not_transGen (h : registry.Finished cycles done) {id : String} (hid : id ∈ done) :
    ¬TransGen (fun a b => registry.Lists a b ∧ ¬ClosedBy cycles a b) id id := by
  induction done with
  | nil => cases hid
  | cons latest before ih =>
    intro hcycle
    by_cases hbefore : id ∈ before
    · exact ih h.2 hbefore hcycle
    · obtain rfl := (List.mem_cons.1 hid).resolve_right hbefore
      obtain ⟨child, hstep, hback⟩ := TransGen.head'_iff.1 hcycle
      exact hbefore (h.2.mem_of_reflTransGen ((h.1 child hstep.1).resolve_right hstep.2) hback)

/-- A step that closes one of some cycles closes one of more cycles. -/
theorem ClosedBy.mono {cycles' : List (List String)} (h : cycles ⊆ cycles') {parent child : String}
    (hclosed : ClosedBy cycles parent child) : ClosedBy cycles' parent child := by
  obtain ⟨front, hfront⟩ := hclosed
  exact ⟨front, h hfront⟩

/-- What is in order but for some cycles is in order but for more cycles. -/
theorem Finished.mono {cycles' : List (List String)} (h : cycles ⊆ cycles') (hdone : registry.Finished cycles done) :
    registry.Finished cycles' done := by
  induction done with
  | nil => trivial
  | cons id before ih => exact ⟨fun child hchild => (hdone.1 child hchild).imp_right (ClosedBy.mono h), ih hdone.2⟩

/-! ## The cycle that is closed on a way -/

variable {above way : List String} {id child : String}

/-- The ids of a way but for its end are registered, since they list the ids before them. -/
theorem mem_ids_of_isWay (h : registry.IsWay (id :: above)) : ∀ x ∈ above, x ∈ registry.ids := by
  induction above generalizing id with
  | nil => simp
  | cons parent above ih =>
    obtain ⟨hlists, hrest⟩ := List.isChain_cons_cons.1 h
    intro x hx
    rcases List.mem_cons.1 hx with rfl | hx
    · exact hlists.mem_ids
    · exact ih hrest x hx

/-- A way without a repetition is no longer than the registry is large, its end apart. -/
theorem length_le_size (h : registry.IsWay (id :: above)) (hnodup : (id :: above).Nodup) :
    above.length ≤ registry.size := by
  have hsub := List.subperm_of_subset (List.nodup_cons.1 hnodup).2 (mem_ids_of_isWay h)
  simpa [ids, size] using hsub.length_le

/-- An id on a way is the end of a first part of it that holds the id once. -/
theorem eq_takeWhile_append (h : child ∈ way) :
    ∃ rest, way = way.takeWhile (· != child) ++ child :: rest ∧ child ∉ way.takeWhile (· != child) := by
  have hnot : child ∉ way.takeWhile (· != child) := by
    intro hin
    simpa using List.mem_takeWhile_imp hin
  cases hdrop : way.dropWhile (· != child) with
  | nil =>
    have hway := List.takeWhile_append_dropWhile (p := (· != child)) (l := way)
    rw [hdrop, List.append_nil] at hway
    rw [hway] at hnot
    exact absurd h hnot
  | cons first rest =>
    have hfirst := List.head_dropWhile_not (p := (· != child)) (l := way) (by simp [hdrop])
    simp only [hdrop, List.head_cons, bne_eq_false_iff_eq] at hfirst
    refine ⟨rest, ?_, hnot⟩
    have hway := List.takeWhile_append_dropWhile (p := (· != child)) (l := way)
    rw [hdrop, hfirst] at hway
    exact hway.symm

/-- The cycle that is closed ends with the step that closes it. -/
theorem exists_closedCycle_eq (h : child ∈ id :: above) :
    ∃ front, closedCycle (id :: above) child = front ++ [id, child] := by
  unfold closedCycle
  by_cases hsame : id = child
  · subst hsame
    exact ⟨[], by simp⟩
  · refine ⟨child :: (above.takeWhile (· != child)).reverse, ?_⟩
    simp [hsame]

/-- What is closed by a child on the way is a cycle. -/
theorem isCycle_closedCycle (hway : registry.IsWay (id :: above)) (hnodup : (id :: above).Nodup)
    (hchild : registry.Lists id child) (h : child ∈ id :: above) : registry.IsCycle (closedCycle (id :: above) child) := by
  obtain ⟨rest, hsplit, hnot⟩ := eq_takeWhile_append h
  generalize hpart : (id :: above).takeWhile (· != child) = part at hsplit hnot
  have hcycle : closedCycle (id :: above) child = (part ++ [child]).reverse ++ [child] := by
    simp [closedCycle, hpart]
  have hprefix : part ++ [child] <+: id :: above := ⟨rest, by simp [hsplit]⟩
  have hpartWay : registry.IsWay (part ++ [child] ++ rest) := by
    rw [show part ++ [child] ++ rest = id :: above by simp [hsplit]]
    exact hway
  refine ⟨⟨child, part.reverse, by simp [hcycle], ?_⟩, ?_⟩
  · have hpartNodup := List.nodup_reverse.2 (hnodup.sublist hprefix.sublist)
    simpa [-List.nodup_cons] using hpartNodup
  · rw [hcycle, List.isChain_append]
    refine ⟨List.isChain_reverse.2 hpartWay.left_of_append, List.isChain_singleton _, ?_⟩
    intro last hlast first hfirst
    obtain rfl : child = first := by simpa using hfirst
    have hend : (part ++ [child]).head? = some id := by
      obtain ⟨tail, htail⟩ := hprefix
      cases part with
      | nil => simpa using congrArg List.head? htail
      | cons a part => simpa using congrArg List.head? htail
    rw [List.getLast?_reverse, hend] at hlast
    obtain rfl : id = last := by simpa using hlast
    exact hchild

/-! ## The search -/

namespace Search

/-- What holds of a search at any time: what is finished is in order, and what is reported are cycles, each of them
once. -/
structure Sound (registry : Registry) (search : Search) : Prop where
  finished : registry.Finished search.cycles search.done
  cyclic : ∀ cycle ∈ search.cycles, registry.IsCycle cycle
  nodup : search.cycles.Nodup

/-- A search that goes on forgets nothing. -/
structure Grows (before after : Search) : Prop where
  done : before.done ⊆ after.done
  cycles : before.cycles ⊆ after.cycles

theorem Grows.refl (search : Search) : Grows search search :=
  ⟨List.Subset.refl _, List.Subset.refl _⟩

theorem Grows.trans {a b c : Search} (hab : Grows a b) (hbc : Grows b c) : Grows a c :=
  ⟨List.Subset.trans hab.done hbc.done, List.Subset.trans hab.cycles hbc.cycles⟩

variable {search : Search} {cycle : List String}

/-- A search that has not begun has reported and finished nothing. -/
theorem sound_empty : Sound registry empty :=
  ⟨trivial, by simp [empty], List.nodup_nil⟩

/-- A report takes nothing back. -/
theorem grows_report : Grows search (search.report cycle) := by
  unfold report
  split
  · exact Grows.refl _
  · exact ⟨List.Subset.refl _, List.subset_append_left _ _⟩

theorem mem_report : cycle ∈ (search.report cycle).cycles := by
  unfold report
  split
  · rename_i h
    simpa using h
  · simp

/-- A report finishes no primitive. -/
theorem done_report : (search.report cycle).done = search.done := by
  unfold report
  split <;> rfl

/-- Reporting a cycle keeps a search sound. -/
theorem Sound.report (h : Sound registry search) (hcycle : registry.IsCycle cycle) :
    Sound registry (search.report cycle) := by
  refine ⟨?_, ?_, ?_⟩
  · rw [done_report]
    exact h.finished.mono grows_report.cycles
  · intro other hother
    unfold Search.report at hother
    split at hother
    · exact h.cyclic other hother
    · rcases List.mem_append.1 hother with hother | hother
      · exact h.cyclic other hother
      · rw [List.mem_singleton.1 hother]
        exact hcycle
  · unfold Search.report
    split
    · exact h.nodup
    · rename_i hnew
      refine List.nodup_append.2 ⟨h.nodup, List.nodup_singleton _, ?_⟩
      intro a ha b hb hab
      rw [List.mem_singleton.1 hb] at hab
      exact hnew (by simpa [hab] using ha)

/-- Finishing an id keeps a search sound, if its children are finished or close cycles. -/
theorem Sound.finish (h : Sound registry search)
    (hchildren : ∀ child, registry.Lists id child → child ∈ search.done ∨ ClosedBy search.cycles id child) :
    Sound registry (search.finish id) :=
  ⟨⟨hchildren, h.finished⟩, h.cyclic, h.nodup⟩

/-- A search that takes ids one after the other stays sound and deals with each of them, if this is so for one id and
what has been dealt with stays dealt with. -/
theorem foldl_spec {step : Search → String → Search} {ids : List String} (goal : Search → String → Prop)
    (hstep : ∀ before, ∀ x ∈ ids, Sound registry before →
      Sound registry (step before x) ∧ Grows before (step before x) ∧ goal (step before x) x)
    (hgoal : ∀ {before after : Search} {x : String}, Grows before after → goal before x → goal after x)
    (h : Sound registry search) :
    Sound registry (ids.foldl step search) ∧ Grows search (ids.foldl step search) ∧
      ∀ x ∈ ids, goal (ids.foldl step search) x := by
  induction ids generalizing search with
  | nil => exact ⟨h, Grows.refl _, by simp⟩
  | cons first ids ih =>
    obtain ⟨hsound, hgrows, hfirst⟩ := hstep search first List.mem_cons_self h
    obtain ⟨hsound', hgrows', hrest⟩ := ih (fun before x hx => hstep before x (List.mem_cons_of_mem _ hx)) hsound
    refine ⟨hsound', hgrows.trans hgrows', ?_⟩
    intro x hx
    rcases List.mem_cons.1 hx with rfl | hx
    · exact hgoal hgrows' hfirst
    · exact hrest x hx

end Search

open Search

/-- What the search does with a child of the end of a way. -/
def searchChild (registry : Registry) (bound : Nat) (way : List String) (search : Search) (child : String) : Search :=
  if way.contains child then search.report (closedCycle way child)
  else if search.done.contains child then search
  else searchBelow registry bound way child search

/-- A search below a primitive goes to each of its children in turn, and then the primitive is finished. -/
theorem searchBelow_succ (bound : Nat) (above : List String) (id : String) (search : Search) :
    registry.searchBelow (bound + 1) above id search =
      ((registry.childIds id).foldl (registry.searchChild bound (id :: above)) search).finish id := rfl

/-- A search below the end of a way finishes it. The bound is never used up: it exceeds what is left of the registry. -/
theorem searchBelow_spec {bound : Nat} {search : Search} (hway : registry.IsWay (id :: above))
    (hnodup : (id :: above).Nodup) (hbound : registry.size < bound + above.length) (h : Sound registry search) :
    Sound registry (registry.searchBelow bound above id search) ∧
      Grows search (registry.searchBelow bound above id search) ∧
      id ∈ (registry.searchBelow bound above id search).done := by
  induction bound generalizing above id search with
  | zero =>
    have := length_le_size hway hnodup
    omega
  | succ bound ih =>
    -- A child is dealt with when it is finished or closes a cycle.
    have hstep : ∀ before, ∀ child ∈ registry.childIds id, Sound registry before →
        Sound registry (registry.searchChild bound (id :: above) before child) ∧
          Grows before (registry.searchChild bound (id :: above) before child) ∧
          (child ∈ (registry.searchChild bound (id :: above) before child).done ∨
            ClosedBy (registry.searchChild bound (id :: above) before child).cycles id child) := by
      intro before child hchild hbefore
      have hlists := mem_childIds.1 hchild
      simp only [searchChild, List.contains_iff_mem]
      split
      · rename_i hon
        obtain ⟨front, hfront⟩ := exists_closedCycle_eq hon
        exact ⟨hbefore.report (isCycle_closedCycle hway hnodup hlists hon), grows_report,
          Or.inr ⟨front, hfront ▸ mem_report⟩⟩
      · rename_i hoff
        split
        · rename_i hdone
          exact ⟨hbefore, Grows.refl _, Or.inl hdone⟩
        · obtain ⟨hsound, hgrows, hdone⟩ := ih (List.isChain_cons_cons.2 ⟨hlists, hway⟩)
            (List.nodup_cons.2 ⟨hoff, hnodup⟩) (by simp only [List.length_cons]; omega) hbefore
          exact ⟨hsound, hgrows, Or.inl hdone⟩
    obtain ⟨hsound, hgrows, hchildren⟩ :=
      foldl_spec (fun after child => child ∈ after.done ∨ ClosedBy after.cycles id child) hstep
        (fun hgrows => Or.imp (fun hdone => hgrows.done hdone) (ClosedBy.mono hgrows.cycles)) h
    rw [searchBelow_succ]
    refine ⟨hsound.finish fun child hchild => hchildren child (mem_childIds.2 hchild), ?_, List.mem_cons_self⟩
    exact ⟨List.subset_cons_of_subset _ hgrows.done, hgrows.cycles⟩

/-- What the search does with a primitive of the registry. -/
def searchFrom (registry : Registry) (search : Search) (id : String) : Search :=
  if search.done.contains id then search else searchBelow registry (registry.size + 1) [] id search

/-- The cycles of a registry are what is reported by searches from all ids, in their order. -/
theorem cycles_eq (registry : Registry) : registry.cycles = (registry.ids.foldl registry.searchFrom .empty).cycles := rfl

/-- The whole search is sound and finishes every primitive. -/
theorem foldl_searchFrom_spec (registry : Registry) :
    Sound registry (registry.ids.foldl registry.searchFrom .empty) ∧
      ∀ id ∈ registry.ids, id ∈ (registry.ids.foldl registry.searchFrom .empty).done := by
  have hstep : ∀ before, ∀ id ∈ registry.ids, Sound registry before →
      Sound registry (registry.searchFrom before id) ∧ Grows before (registry.searchFrom before id) ∧
        id ∈ (registry.searchFrom before id).done := by
    intro before id _ hbefore
    simp only [searchFrom, List.contains_iff_mem]
    split
    · rename_i hdone
      exact ⟨hbefore, Grows.refl _, hdone⟩
    · exact searchBelow_spec (List.isChain_singleton _) (List.nodup_singleton _) (by simp) hbefore
  obtain ⟨hsound, -, hdone⟩ :=
    foldl_spec (fun after id => id ∈ after.done) hstep (fun hgrows hid => hgrows.done hid) sound_empty
  exact ⟨hsound, hdone⟩

/-- Every reported cycle is one. -/
theorem isCycle_of_mem_cycles {cycle : List String} (h : cycle ∈ registry.cycles) : registry.IsCycle cycle := by
  rw [cycles_eq] at h
  exact (foldl_searchFrom_spec registry).1.cyclic cycle h

/-- No way of steps that close no reported cycle leads back to where it starts. -/
theorem not_transGen_of_cycles (registry : Registry) (id : String) :
    ¬TransGen (fun a b => registry.Lists a b ∧ ¬ClosedBy registry.cycles a b) id id := by
  intro hcycle
  obtain ⟨hsound, hdone⟩ := foldl_searchFrom_spec registry
  obtain ⟨child, hstep, -⟩ := TransGen.head'_iff.1 hcycle
  rw [cycles_eq] at hcycle
  exact hsound.finished.not_transGen (hdone id hstep.1.mem_ids) hcycle

/-- There is a cycle exactly if one is reported. -/
theorem cycles_eq_nil_iff : registry.cycles = [] ↔ ∀ id, ¬TransGen registry.Lists id id := by
  constructor
  · intro hnone id hcycle
    refine not_transGen_of_cycles registry id (TransGen.mono (fun a b hab => ⟨hab, ?_⟩) _ _ hcycle)
    rintro ⟨front, hfront⟩
    simp [hnone] at hfront
  · intro hacyclic
    refine List.eq_nil_iff_forall_not_mem.2 fun cycle hcycle => ?_
    obtain ⟨start, hstart⟩ := (isCycle_of_mem_cycles hcycle).transGen
    exact hacyclic start hstart

end Registry

end Prebake
