import Mathlib.Logic.Function.Basic
import Prebake.Proofs.Registry.Cycles

/-!
# The search for cycles, step by step

The search can also be told without recursion: a way that grows and shrinks at its end, a count of the children looked at for
each id on it, and a mark on every id that has been reached. The marks follow from the way and from what is done
(`marksOf`), so each step is one of the recursive search, and the descent comes to its end with the cycles that
`Registry.cycles` lists (`descends_to_end`). Together with what is known of these cycles this says what a report of cycles is
worth (`descent_reports_cycles`).
-/

namespace Prebake

namespace Registry

open Relation Function

/-- How far the search has come with an id that it has reached. -/
inductive Mark where
  | visiting
  | done
deriving DecidableEq, Repr

/-- A search between two steps. -/
structure Descent where
  /-- The ids at which the search has still to begin. -/
  waiting : List String
  /-- The way that is being walked, from its end to its beginning, with the number of children looked at on each id. -/
  way : List (String × Nat)
  marks : String → Option Mark
  cycles : List (List String)

namespace Descent

/-- The ids on the way, from its end to its beginning. -/
def ids (d : Descent) : List String := d.way.map Prod.fst

/-- The cycle that a child closes: the way from where it stands on it, and the child once more. -/
def closedCycle (d : Descent) (child : String) : List String :=
  let fromBeginning := d.ids.reverse
  fromBeginning.drop ((fromBeginning.findIdx? (· == child)).getD 0) ++ [child]

/-- The descent with a cycle reported, unless it is known. -/
def report (d : Descent) (cycle : List String) : Descent :=
  if d.cycles.contains cycle then d else { d with cycles := d.cycles ++ [cycle] }

/-- The descent with an id reached, to which the way goes on. -/
def enter (d : Descent) (id : String) : Descent :=
  { d with way := (id, 0) :: d.way, marks := update d.marks id (some .visiting) }

end Descent

/-- Where the search begins. -/
def descent (registry : Registry) : Descent := ⟨registry.ids, [], fun _ => none, []⟩

/-- The next step of the search: the next child of the end of the way, or the way back once there is none, or the next id to
begin at when the way is empty. -/
def step? (registry : Registry) (d : Descent) : Option Descent :=
  match d.way with
  | (id, next) :: above =>
    match (registry.childIds id)[next]? with
    | none => some { d with way := above, marks := update d.marks id (some .done) }
    | some child =>
      let seen := { d with way := (id, next + 1) :: above }
      match d.marks child with
      | some .visiting => some (seen.report (seen.closedCycle child))
      | some .done => some seen
      | none => some (seen.enter child)
  | [] =>
    match d.waiting with
    | [] => none
    | id :: waiting =>
      let others := { d with waiting := waiting }
      some (if (d.marks id).isSome then others else others.enter id)

/-- Any number of steps of the search. -/
def Descends (registry : Registry) : Descent → Descent → Prop :=
  ReflTransGen fun before after => registry.step? before = some after

variable {registry : Registry} {waiting above : List String} {way : List (String × Nat)} {search : Search}
  {id child : String} {next : Nat}

/-! ## The marks -/

/-- The mark of an id: those on the way are being visited, and those that are done have been. -/
def marksOf (way done : List String) (id : String) : Option Mark :=
  if id ∈ way then some .visiting else if id ∈ done then some .done else none

/-- An id that is reached joins the way. -/
theorem update_visiting (above done : List String) :
    update (marksOf above done) id (some .visiting) = marksOf (id :: above) done := by
  funext x
  by_cases hx : x = id
  · subst hx
    simp [marksOf]
  · simp [marksOf, hx]

/-- An id that is left is done. -/
theorem update_done {done : List String} (h : id ∉ above) :
    update (marksOf (id :: above) done) id (some .done) = marksOf above (id :: done) := by
  funext x
  by_cases hx : x = id
  · subst hx
    simp [marksOf, h]
  · simp [marksOf, hx]

/-- The descent that stands where the recursive search does. -/
def Search.standing (search : Search) (waiting : List String) (way : List (String × Nat)) : Descent :=
  ⟨waiting, way, marksOf (way.map Prod.fst) search.done, search.cycles⟩

/-- To enter an id puts it at the end of the way. -/
theorem enter_standing :
    (search.standing waiting way).enter id = search.standing waiting ((id, 0) :: way) := by
  rw [Descent.enter, Search.standing, Search.standing, update_visiting]
  rfl

/-- A report of the descent is a report of the search. -/
theorem report_standing {cycle : List String} :
    (search.standing waiting way).report cycle = (search.report cycle).standing waiting way := by
  unfold Descent.report Search.report Search.standing
  dsimp only
  split <;> rfl

/-- A child that stands on the way once closes the cycle that the recursive search reports. -/
theorem closedCycle_standing (hnodup : (way.map Prod.fst).Nodup) (h : child ∈ way.map Prod.fst) :
    (search.standing waiting way).closedCycle child = closedCycle (way.map Prod.fst) child := by
  show (way.map Prod.fst).reverse.drop (((way.map Prod.fst).reverse.findIdx? (· == child)).getD 0) ++ [child] = _
  obtain ⟨rest, hsplit, -⟩ := eq_takeWhile_append h
  generalize hpart : (way.map Prod.fst).takeWhile (· != child) = part at hsplit
  rw [closedCycle, hpart, hsplit]
  rw [hsplit] at hnodup
  have hrest : child ∉ rest := (List.nodup_cons.1 hnodup.of_append_right).1
  have hindex : (part ++ child :: rest).reverse.findIdx? (· == child) = some rest.length := by
    rw [List.findIdx?_eq_some_iff_getElem]
    refine ⟨by simp, by simp, fun j hj => ?_⟩
    have hlt : j < (part ++ child :: rest).reverse.length := by
      simp
      omega
    have hmem : (part ++ child :: rest).reverse[j] ∈ rest := by
      simp only [List.reverse_append, List.reverse_cons, List.append_assoc]
      rw [List.getElem_append_left (by simpa using hj)]
      exact List.mem_reverse.1 (List.getElem_mem _)
    intro heq
    exact hrest (by simpa using (beq_iff_eq.1 heq) ▸ hmem)
  rw [hindex]
  simp

/-! ## Single steps -/

/-- Past the last child of the end of the way the search goes back, and the end is done. -/
theorem step?_last (hnext : (registry.childIds id)[next]? = none) (h : id ∉ way.map Prod.fst) :
    registry.step? (search.standing waiting ((id, next) :: way)) = some ((search.finish id).standing waiting way) := by
  have hmarks : update (marksOf (id :: way.map Prod.fst) search.done) id (some .done) =
      marksOf (way.map Prod.fst) (search.finish id).done := update_done h
  simp only [step?, Search.standing, hnext, List.map_cons, hmarks]
  rfl

/-- A child on the way closes a cycle. -/
theorem step?_visiting (hnodup : (id :: way.map Prod.fst).Nodup) (hnext : (registry.childIds id)[next]? = some child)
    (h : child ∈ id :: way.map Prod.fst) :
    registry.step? (search.standing waiting ((id, next) :: way)) =
      some ((search.report (closedCycle (id :: way.map Prod.fst) child)).standing waiting ((id, next + 1) :: way)) := by
  have hmark : marksOf (id :: way.map Prod.fst) search.done child = some .visiting := if_pos h
  have hcycle : (search.standing waiting ((id, next + 1) :: way)).closedCycle child =
      closedCycle (id :: way.map Prod.fst) child := closedCycle_standing hnodup h
  rw [← report_standing, ← hcycle]
  simp only [step?, Search.standing, hnext, List.map_cons, hmark]

/-- A child that is done is passed over. -/
theorem step?_done (hnext : (registry.childIds id)[next]? = some child) (h : child ∉ id :: way.map Prod.fst)
    (hdone : child ∈ search.done) :
    registry.step? (search.standing waiting ((id, next) :: way)) =
      some (search.standing waiting ((id, next + 1) :: way)) := by
  have hmark : marksOf (id :: way.map Prod.fst) search.done child = some .done := (if_neg h).trans (if_pos hdone)
  simp only [step?, Search.standing, hnext, List.map_cons, hmark]

/-- A child that has not been reached becomes the end of the way. -/
theorem step?_new (hnext : (registry.childIds id)[next]? = some child) (h : child ∉ id :: way.map Prod.fst)
    (hdone : child ∉ search.done) :
    registry.step? (search.standing waiting ((id, next) :: way)) =
      some (search.standing waiting ((child, 0) :: (id, next + 1) :: way)) := by
  have hmark : marksOf (id :: way.map Prod.fst) search.done child = none := (if_neg h).trans (if_neg hdone)
  rw [← enter_standing]
  simp only [step?, Search.standing, hnext, List.map_cons, hmark]

/-! ## The whole descent -/

/-- The descent does with a child what the recursive search does, if it does so below a child that has not been reached. -/
theorem descends_searchChild {bound : Nat} (hnodup : (id :: way.map Prod.fst).Nodup)
    (hnext : (registry.childIds id)[next]? = some child)
    (hbelow : child ∉ id :: way.map Prod.fst →
      registry.Descends (search.standing waiting ((child, 0) :: (id, next + 1) :: way))
        ((registry.searchBelow bound (id :: way.map Prod.fst) child search).standing waiting ((id, next + 1) :: way))) :
    registry.Descends (search.standing waiting ((id, next) :: way))
      ((registry.searchChild bound (id :: way.map Prod.fst) search child).standing waiting ((id, next + 1) :: way)) := by
  simp only [searchChild, List.contains_iff_mem]
  split
  · rename_i hon
    exact ReflTransGen.single (step?_visiting hnodup hnext hon)
  · rename_i hoff
    split
    · rename_i hdone
      exact ReflTransGen.single (step?_done hnext hoff hdone)
    · rename_i hnew
      exact ReflTransGen.head (step?_new hnext hoff hnew) (hbelow hoff)

/-- It goes through the children of the end of the way from some place on and then leaves the end, if it does with each child
what the recursive search does. -/
theorem descends_foldl {visit : Search → String → Search} {rest : List String} (hnew : id ∉ way.map Prod.fst)
    (hchild : ∀ next child before, (registry.childIds id)[next]? = some child →
      registry.Descends (before.standing waiting ((id, next) :: way))
        ((visit before child).standing waiting ((id, next + 1) :: way)))
    (hrest : (registry.childIds id).drop next = rest) :
    registry.Descends (search.standing waiting ((id, next) :: way))
      (((rest.foldl visit search).finish id).standing waiting way) := by
  induction rest generalizing next search with
  | nil =>
    have hnext := List.getElem?_eq_none (List.drop_eq_nil_iff.1 hrest)
    exact ReflTransGen.single (step?_last hnext hnew)
  | cons child rest ih =>
    have hnext : (registry.childIds id)[next]? = some child := by
      rw [← List.head?_drop, hrest, List.head?_cons]
    have hdrop : (registry.childIds id).drop (next + 1) = rest := by
      rw [← List.tail_drop, hrest, List.tail_cons]
    exact (hchild next child search hnext).trans (ih hdrop)

/-- From the moment at which an id becomes the end of the way until it is left, the descent does what the recursive search
below this id does. -/
theorem descends_searchBelow {bound : Nat} (hway : registry.IsWay (id :: way.map Prod.fst))
    (hnodup : (id :: way.map Prod.fst).Nodup) (hbound : registry.size < bound + way.length) :
    registry.Descends (search.standing waiting ((id, 0) :: way))
      ((registry.searchBelow bound (way.map Prod.fst) id search).standing waiting way) := by
  induction bound generalizing id way search with
  | zero =>
    -- a way without a repetition is not longer than the registry is large
    have := length_le_size hway hnodup
    simp only [List.length_map] at this
    omega
  | succ bound ih =>
    rw [searchBelow_succ]
    refine descends_foldl (List.nodup_cons.1 hnodup).1 (fun next child before hnext => ?_) List.drop_zero
    refine descends_searchChild hnodup hnext fun hoff => ?_
    have hlists := mem_childIds.1 (List.mem_of_getElem? hnext)
    have hlonger : registry.IsWay (child :: ((id, next + 1) :: way).map Prod.fst) :=
      List.isChain_cons_cons.2 ⟨hlists, hway⟩
    refine ih hlonger (List.nodup_cons.2 ⟨hoff, hnodup⟩) ?_
    simp only [List.length_cons]
    omega

/-- The descent goes through all ids at which it has to begin. -/
theorem descends_foldl_searchFrom (registry : Registry) (waiting : List String) (search : Search) :
    registry.Descends (search.standing waiting []) ((waiting.foldl registry.searchFrom search).standing [] []) := by
  induction waiting generalizing search with
  | nil => exact ReflTransGen.refl
  | cons id waiting ih =>
    refine ReflTransGen.trans ?_ (ih (registry.searchFrom search id))
    simp only [searchFrom, List.contains_iff_mem]
    split
    · rename_i hdone
      refine ReflTransGen.single ?_
      simp [step?, Search.standing, marksOf, hdone]
    · rename_i hnew
      have hbegin : registry.step? (search.standing (id :: waiting) []) =
          some (search.standing waiting [(id, 0)]) := by
        rw [← enter_standing]
        simp [step?, Search.standing, marksOf, hnew]
      have hway : registry.IsWay (id :: ([] : List (String × Nat)).map Prod.fst) := List.isChain_singleton _
      exact ReflTransGen.head hbegin (descends_searchBelow hway (List.nodup_singleton _) (by simp))

/-- On every registry the search comes to an end, and then it has reported the cycles of the registry. -/
theorem descends_to_end (registry : Registry) :
    ∃ last, registry.Descends registry.descent last ∧ registry.step? last = none ∧ last.cycles = registry.cycles :=
  ⟨_, descends_foldl_searchFrom registry registry.ids .empty, rfl, (cycles_eq registry).symm⟩

/-! ## Reports -/

/-- A walk along lists of children that ends where it starts; an id may stand on it more than once. -/
structure IsClosedWalk (registry : Registry) (walk : List String) : Prop where
  closed : ∃ (start : String) (between : List String), walk = start :: (between ++ [start])
  lists : walk.IsChain registry.Lists

/-- Every closed walk takes a step that closes a reported cycle. -/
theorem exists_closedBy_of_isClosedWalk {walk : List String} (h : registry.IsClosedWalk walk) :
    ∃ parent child, [parent, child] <:+: walk ∧ ClosedBy registry.cycles parent child := by
  obtain ⟨start, between, rfl⟩ := h.closed
  by_contra hnone
  have hopen : (start :: (between ++ [start])).IsChain
      fun parent child => registry.Lists parent child ∧ ¬ClosedBy registry.cycles parent child := by
    refine List.isChain_iff_forall_rel_of_append_cons_cons.2 fun parent child before after heq => ⟨?_, fun hclosed => ?_⟩
    · exact List.isChain_iff_forall_rel_of_append_cons_cons.1 h.lists heq
    · exact hnone ⟨parent, child, ⟨before, after, by simp [heq]⟩, hclosed⟩
  exact not_transGen_of_cycles registry start (reflTransGen_of_isChain hopen)

/-- What the search for cycles reports, on any registry: it comes to an end; each report is a cycle along lists of children
without a repetition, and no cycle is reported twice; every closed walk takes the closing step of a reported cycle; so
nothing is reported exactly if the lists of children have no cycle. -/
theorem descent_reports_cycles (registry : Registry) :
    (∃ last, registry.Descends registry.descent last ∧ registry.step? last = none ∧ last.cycles = registry.cycles) ∧
      (∀ cycle ∈ registry.cycles, registry.IsCycle cycle) ∧ registry.cycles.Nodup ∧
      (∀ walk, registry.IsClosedWalk walk →
        ∃ parent child, [parent, child] <:+: walk ∧ ClosedBy registry.cycles parent child) ∧
      (registry.cycles = [] ↔ ∀ id, ¬TransGen registry.Lists id id) := by
  have hnodup : registry.cycles.Nodup := by
    rw [cycles_eq]
    exact (foldl_searchFrom_spec registry).1.nodup
  exact ⟨descends_to_end registry, fun _ => isCycle_of_mem_cycles, hnodup, fun _ => exists_closedBy_of_isClosedWalk,
    cycles_eq_nil_iff⟩

end Registry

end Prebake
