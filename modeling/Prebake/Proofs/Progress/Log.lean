import Prebake.Proofs.Progress.Visit

/-!
# The log of a visit

A visit keeps only the latest attempt for each primitive. Its log lists all attempts that it makes, in their order, and
putting them into the tables one after the other gives the tables that the visit ends with (`replays_visit`). For one primitive
the attempts are made in ever wider scopes, and all of them but the last are open: another scope could still help
(`widening_visit`).
-/

namespace Prebake

/-- An attempt that a visit makes: for which primitive, in which scope, and what comes of it. -/
structure LoggedAttempt where
  id : String
  scope : Scope
  outcome : Attempt

/-- The attempts for one primitive. -/
def attemptsFor (id : String) (log : List LoggedAttempt) : List LoggedAttempt := log.filter fun entry => entry.id = id

theorem attemptsFor_append (id : String) (first second : List LoggedAttempt) :
    attemptsFor id (first ++ second) = attemptsFor id first ++ attemptsFor id second := List.filter_append ..

/-- A log that tells of other primitives only has no attempts for this one. -/
theorem attemptsFor_eq_nil {id : String} {log : List LoggedAttempt} (h : ∀ entry ∈ log, entry.id ≠ id) :
    attemptsFor id log = [] := List.filter_eq_nil_iff.2 fun entry hentry => by simpa using h entry hentry

namespace Progress

/-! ## What is logged -/

/-- The visit comes to an ancestor of a pending primitive. -/
def retryLog (registry : Registry) (ancestor : String) (progress : Progress) (id : String) : List LoggedAttempt :=
  match registry.find? id with
  | none => []
  | some p =>
    if progress.isClosed id then []
    else [⟨p.id, registry.scopeUpTo p ancestor, progress.outcome p (registry.scopeUpTo p ancestor)⟩]

/-- The visit comes to an ancestor of pending primitives. -/
def retryAllLog (registry : Registry) (ancestor : String) (progress : Progress) : List String → List LoggedAttempt
  | [] => []
  | id :: pending =>
    progress.retryLog registry ancestor id ++ retryAllLog registry ancestor (progress.retry registry ancestor id) pending

/-- The visit comes to a primitive. -/
def beginLog (progress : Progress) (p : Primitive) : List LoggedAttempt :=
  [⟨p.id, [p.layer], progress.outcome p [p.layer]⟩]

mutual

/-- The attempts that the visit of a tree makes. -/
def visitLog (registry : Registry) (progress : Progress) : Tree → List LoggedAttempt
  | .node p children =>
    let (below, middle) := progress.visitAll registry children
    visitAllLog registry progress children ++ middle.retryAllLog registry p.id below ++
      (middle.retryAll registry p.id below).2.beginLog p

/-- The attempts that the visit of several trees makes. -/
def visitAllLog (registry : Registry) (progress : Progress) : List Tree → List LoggedAttempt
  | [] => []
  | tree :: trees => visitLog registry progress tree ++ visitAllLog registry (progress.visit registry tree).2 trees

end

variable {registry : Registry} {progress before middle after : Progress} {log : List LoggedAttempt} {p : Primitive}
  {above : List Primitive} {tree : Tree} {ancestor id : String}

/-! ## Replaying the log -/

/-- Putting the attempts of a log into the tables one after the other leads from one state of a visit to another. -/
structure Replays (after before : Progress) (log : List LoggedAttempt) : Prop where
  attempts : after.attempts = log.foldl (fun attempts entry => attempts.insert entry.id entry.outcome) before.attempts
  evaluations : after.evaluations = log.foldl
    (fun evaluations entry => evaluations.insert entry.id ((evaluations.find? entry.id).getD 0 + 1)) before.evaluations

namespace Replays

theorem nil (progress : Progress) : Replays progress progress [] := ⟨rfl, rfl⟩

theorem append {rest : List LoggedAttempt} (h : Replays middle before log) (hrest : Replays after middle rest) :
    Replays after before (log ++ rest) :=
  ⟨by rw [hrest.attempts, h.attempts, List.foldl_append], by rw [hrest.evaluations, h.evaluations, List.foldl_append]⟩

/-- Each attempt in the log is counted. -/
theorem evaluationsOf (h : Replays after before log) (id : String) :
    after.evaluationsOf id = before.evaluationsOf id + (attemptsFor id log).length := by
  have hfold : ∀ (log : List LoggedAttempt) (first : NameMap Nat),
      ((log.foldl (fun evaluations entry =>
        evaluations.insert entry.id ((evaluations.find? entry.id).getD 0 + 1)) first).find? id).getD 0 =
        (first.find? id).getD 0 + (attemptsFor id log).length := by
    intro log
    induction log with
    | nil => exact fun _ => rfl
    | cons entry log ih =>
      intro first
      rw [List.foldl_cons, ih, NameMap.find?_insert, attemptsFor, attemptsFor, List.filter_cons]
      by_cases hsame : entry.id = id
      · subst hsame
        simp
        omega
      · simp [hsame, Ne.symm hsame]
  rw [Progress.evaluationsOf, h.evaluations, hfold]
  rfl

/-- What is known of a primitive in the end is the last attempt for it in the log. -/
theorem find?_attempts (h : Replays after before log) (id : String) : after.attempts.find? id =
    ((attemptsFor id log).getLast?.map (·.outcome)).or (before.attempts.find? id) := by
  have hfold : ∀ (log : List LoggedAttempt) (first : NameMap Attempt),
      (log.foldl (fun attempts entry => attempts.insert entry.id entry.outcome) first).find? id =
        ((attemptsFor id log).getLast?.map (·.outcome)).or (first.find? id) := by
    intro log
    induction log with
    | nil => exact fun _ => rfl
    | cons entry log ih =>
      intro first
      rw [List.foldl_cons, ih, NameMap.find?_insert, attemptsFor, attemptsFor, List.filter_cons]
      by_cases hsame : entry.id = id
      · subst hsame
        rw [if_pos rfl, if_pos (by simp), List.getLast?_cons]
        cases (log.filter fun other => other.id = entry.id).getLast? <;> rfl
      · rw [if_neg (Ne.symm hsame), if_neg (by simpa using hsame)]
  rw [h.attempts, hfold]

end Replays

/-- An attempt is replayed from its log. -/
theorem replays_evaluate (progress : Progress) (p : Primitive) (scope : Scope) :
    Replays (progress.evaluate p scope) progress [⟨p.id, scope, progress.outcome p scope⟩] := ⟨rfl, rfl⟩

/-- A retry is replayed from its log, which is empty where the primitive is not attempted again. -/
theorem replays_retry (registry : Registry) (ancestor : String) (progress : Progress) (id : String) :
    Replays (progress.retry registry ancestor id) progress (progress.retryLog registry ancestor id) := by
  unfold retry retryLog isClosed
  cases registry.find? id with
  | none => exact Replays.nil progress
  | some p =>
    have hone := replays_evaluate progress p (registry.scopeUpTo p ancestor)
    dsimp only
    split
    · exact Replays.nil progress
    · split
      · exact ⟨hone.attempts, hone.evaluations⟩
      · exact hone

/-- The retries of all pending primitives are replayed from their log. -/
theorem replays_retryAll (registry : Registry) (ancestor : String) (progress : Progress) (pending : List String) :
    Replays (progress.retryAll registry ancestor pending).2 progress (progress.retryAllLog registry ancestor pending) := by
  induction pending generalizing progress with
  | nil => exact Replays.nil progress
  | cons id pending ih => exact (replays_retry registry ancestor progress id).append (ih _)

/-- The first attempt for a primitive is replayed from its log. -/
theorem replays_begin (progress : Progress) (p : Primitive) : Replays (progress.begin p) progress (progress.beginLog p) := by
  have hone := replays_evaluate progress p [p.layer]
  unfold begin
  dsimp only
  split
  · exact hone
  · exact ⟨hone.attempts, hone.evaluations⟩

mutual

/-- The log of a visit tells how its tables came about. -/
theorem replays_visit (registry : Registry) (progress : Progress) :
    ∀ tree : Tree, Replays (progress.visit registry tree).2 progress (progress.visitLog registry tree)
  | .node p children => by
    have hbelow := replays_visitAll registry progress children
    rw [visit, visitLog]
    dsimp only
    exact (hbelow.append (replays_retryAll registry p.id _ _)).append (replays_begin _ p)

/-- Visits of several trees are replayed from their log. -/
theorem replays_visitAll (registry : Registry) (progress : Progress) :
    ∀ trees : List Tree, Replays (progress.visitAll registry trees).2 progress (progress.visitAllLog registry trees)
  | [] => Replays.nil progress
  | tree :: trees => by
    rw [visitAll, visitAllLog]
    exact (replays_visit registry progress tree).append (replays_visitAll registry _ trees)

end

/-! ## Which attempts are logged -/

/-- A retry logs attempts for its primitive only. -/
theorem id_of_mem_retryLog {entry : LoggedAttempt} (h : entry ∈ progress.retryLog registry ancestor id) : entry.id = id := by
  unfold retryLog at h
  cases hfound : registry.find? id with
  | none => simp [hfound] at h
  | some p =>
    obtain ⟨-, rfl⟩ := Registry.find?_eq_some_iff.1 hfound
    rw [hfound] at h
    dsimp only at h
    split at h
    · cases h
    · exact congrArg LoggedAttempt.id (List.mem_singleton.1 h)

/-- The first attempt for a primitive is none for any other. -/
theorem attemptsFor_beginLog (progress : Progress) (p : Primitive) (id : String) :
    attemptsFor id (progress.beginLog p) = if p.id = id then progress.beginLog p else [] := by
  rw [beginLog, attemptsFor, List.filter_singleton]
  simp

/-- Retries log attempts for pending primitives only. -/
theorem id_of_mem_retryAllLog {pending : List String} {entry : LoggedAttempt}
    (h : entry ∈ progress.retryAllLog registry ancestor pending) : entry.id ∈ pending := by
  induction pending generalizing progress with
  | nil => cases h
  | cons id pending ih =>
    rcases List.mem_append.1 h with h | h
    · exact List.mem_cons.2 (Or.inl (id_of_mem_retryLog h))
    · exact List.mem_cons_of_mem _ (ih h)

/-- When the visit comes to an ancestor, a pending primitive is attempted once, unless no scope can help it. -/
theorem attemptsFor_retryAllLog {pending : List String} (hnodup : pending.Nodup) (hp : p ∈ registry.primitives)
    (hin : p.id ∈ pending) (progress : Progress) :
    progress.isClosed p.id = true ∧ attemptsFor p.id (progress.retryAllLog registry ancestor pending) = [] ∨
      progress.isClosed p.id = false ∧ ∃ markup, attemptsFor p.id (progress.retryAllLog registry ancestor pending) =
        [⟨p.id, registry.scopeUpTo p ancestor, p.attempt markup (registry.scopeUpTo p ancestor)⟩] := by
  induction pending generalizing progress with
  | nil => cases hin
  | cons id pending ih =>
    obtain ⟨hfresh, hnodup⟩ := List.nodup_cons.1 hnodup
    rw [retryAllLog, attemptsFor_append]
    by_cases hsame : p.id = id
    · subst hsame
      have hrest : attemptsFor p.id
          ((progress.retry registry ancestor p.id).retryAllLog registry ancestor pending) = [] :=
        attemptsFor_eq_nil fun entry hentry same => hfresh (same ▸ id_of_mem_retryAllLog hentry)
      rw [hrest, List.append_nil, retryLog, Registry.find?_of_mem hp]
      cases progress.isClosed p.id with
      | true => exact Or.inl ⟨rfl, rfl⟩
      | false => exact Or.inr ⟨rfl, p.children.map progress.rendered?, by simp [attemptsFor, outcome]⟩
    · have hfirst : attemptsFor p.id (progress.retryLog registry ancestor id) = [] :=
        attemptsFor_eq_nil fun entry hentry same => hsame (same.symm.trans (id_of_mem_retryLog hentry))
      have hnext : SameAt (progress.retry registry ancestor id) progress p.id := sameAt_retry hsame
      rw [hfirst, List.nil_append, ← hnext.isClosed]
      exact ih hnodup (List.mem_of_ne_of_mem hsame hin) _

/-- What is still pending after the retries was pending before them. -/
theorem mem_of_mem_retryAll {pending : List String} (h : id ∈ (progress.retryAll registry ancestor pending).1) :
    id ∈ pending := by
  induction pending generalizing progress with
  | nil => exact h
  | cons first pending ih =>
    rw [retryAll] at h
    dsimp only at h
    split at h
    · exact List.mem_cons_of_mem _ (ih h)
    · rcases List.mem_cons.1 h with rfl | h
      · exact List.mem_cons_self
      · exact List.mem_cons_of_mem _ (ih h)

mutual

/-- Nothing is pending after the visit of a tree but what is in the tree. -/
theorem mem_ids_of_mem_visit (registry : Registry) (progress : Progress) :
    ∀ tree : Tree, ∀ id ∈ (progress.visit registry tree).1, id ∈ tree.ids
  | .node p children, id, h => by
    have hbelow := mem_ids_of_mem_visitAll registry progress children
    rw [visit] at h
    dsimp only at h
    rw [Tree.ids_node, List.mem_append, List.mem_singleton]
    split at h
    · exact Or.inl (hbelow id (mem_of_mem_retryAll h))
    · rcases List.mem_append.1 h with h | h
      · exact Or.inl (hbelow id (mem_of_mem_retryAll h))
      · exact Or.inr (List.mem_singleton.1 h)

/-- Visits of several trees leave only primitives of these trees pending. -/
theorem mem_ids_of_mem_visitAll (registry : Registry) (progress : Progress) :
    ∀ trees : List Tree, ∀ id ∈ (progress.visitAll registry trees).1, id ∈ trees.flatMap Tree.ids
  | [], _, h => absurd h List.not_mem_nil
  | tree :: trees, id, h => by
    rw [visitAll] at h
    rw [List.flatMap_cons, List.mem_append]
    exact (List.mem_append.1 h).imp (mem_ids_of_mem_visit registry progress tree id)
      (mem_ids_of_mem_visitAll registry _ trees id)

end

mutual

/-- The visit of a tree attempts nothing but what is in the tree. -/
theorem id_of_mem_visitLog (registry : Registry) (progress : Progress) :
    ∀ tree : Tree, ∀ entry ∈ progress.visitLog registry tree, entry.id ∈ tree.ids
  | .node p children, entry, h => by
    rw [visitLog] at h
    dsimp only at h
    rw [Tree.ids_node, List.mem_append, List.mem_singleton]
    rcases List.mem_append.1 h with h | h
    · rcases List.mem_append.1 h with h | h
      · exact Or.inl (id_of_mem_visitAllLog registry progress children entry h)
      · exact Or.inl (mem_ids_of_mem_visitAll registry progress children _ (id_of_mem_retryAllLog h))
    · exact Or.inr (congrArg LoggedAttempt.id (List.mem_singleton.1 h))

/-- Visits of several trees log attempts for primitives of these trees only. -/
theorem id_of_mem_visitAllLog (registry : Registry) (progress : Progress) :
    ∀ trees : List Tree, ∀ entry ∈ progress.visitAllLog registry trees, entry.id ∈ trees.flatMap Tree.ids
  | [], _, h => absurd h List.not_mem_nil
  | tree :: trees, entry, h => by
    rw [visitAllLog] at h
    rw [List.flatMap_cons, List.mem_append]
    exact (List.mem_append.1 h).imp (id_of_mem_visitLog registry progress tree entry)
      (id_of_mem_visitAllLog registry _ trees entry)

end

/-! ## Ever wider scopes -/

/-- The attempts for a primitive were made in ever wider parts of its scope, and all of them but the last are open. -/
structure Widening (p : Primitive) (scope : Scope) (log : List LoggedAttempt) : Prop where
  scopes : ∀ k entry, log[k]? = some entry → entry.scope = scope.take (k + 1)
  outcomes : ∀ entry ∈ log, ∃ markup, entry.outcome = p.attempt markup entry.scope
  earlier : ∀ k entry, log[k]? = some entry → k + 1 < log.length → entry.outcome.isOpen = true

namespace Widening

variable {scope : Scope} {layer : Layer}

/-- Without another attempt nothing changes when the scope gets wider. -/
theorem wider (h : Widening p scope log) (hlength : log.length ≤ scope.length) : Widening p (scope ++ [layer]) log where
  scopes k entry hentry := by
    have hk : k < log.length := (List.getElem?_eq_some_iff.1 hentry).1
    rw [h.scopes k entry hentry, List.take_append_of_le_length (by omega)]
  outcomes := h.outcomes
  earlier := h.earlier

/-- An open attempt in the whole of a scope may be followed by one in a scope with one more layer. -/
theorem concat {entry : LoggedAttempt} {markup : List (Option Rendered)} (h : Widening p scope log)
    (hlength : log.length = scope.length) (hopen : ∀ last, log.getLast? = some last → last.outcome.isOpen = true)
    (hscope : entry.scope = scope ++ [layer]) (houtcome : entry.outcome = p.attempt markup entry.scope) :
    Widening p (scope ++ [layer]) (log ++ [entry]) where
  scopes k other hother := by
    by_cases hk : k < log.length
    · rw [List.getElem?_append_left hk] at hother
      exact (h.wider hlength.le).scopes k other hother
    · have hlast : k = log.length := by
        have hlt := (List.getElem?_eq_some_iff.1 hother).1
        rw [List.length_append, List.length_singleton] at hlt
        omega
      subst hlast
      obtain rfl : entry = other := by simpa using hother
      rw [hscope, List.take_of_length_le (by simp [hlength])]
  outcomes other hother := by
    rcases List.mem_append.1 hother with hother | hother
    · exact h.outcomes other hother
    · obtain rfl := List.mem_singleton.1 hother
      exact ⟨markup, houtcome⟩
  earlier k other hother hmore := by
    rw [List.length_append, List.length_singleton] at hmore
    have hk : k < log.length := by omega
    rw [List.getElem?_append_left hk] at hother
    by_cases hlast : k + 1 = log.length
    · refine hopen other ?_
      rw [List.getLast?_eq_getElem?, ← hlast]
      exact hother
    · exact h.earlier k other hother (by omega)

end Widening

/-! ## Whole trees -/

/-- After the visits of several trees the log of each primitive in them is widening, if that holds of the visit of each. -/
theorem widening_visitAll (hforest : registry.IsForest) {trees : List Tree}
    (hgrown : ∀ tree ∈ trees, Tree.Grown registry above tree) (hnodup : (trees.flatMap Tree.ids).Nodup)
    (hvisit : ∀ tree ∈ trees, ∀ before : Progress, (∀ id ∈ tree.ids, SameAt before empty id) →
      ∀ p way, (p, way) ∈ tree.places [] →
        Widening p ((p :: way).map Primitive.layer) (attemptsFor p.id (before.visitLog registry tree)))
    (progress : Progress) (hfresh : ∀ id ∈ trees.flatMap Tree.ids, SameAt progress empty id) :
    ∀ tree ∈ trees, ∀ p way, (p, way) ∈ tree.places [] →
      Widening p ((p :: way).map Primitive.layer) (attemptsFor p.id (progress.visitAllLog registry trees)) := by
  induction trees generalizing progress with
  | nil => exact nofun
  | cons tree trees ih =>
    rw [List.flatMap_cons] at hnodup hfresh
    obtain ⟨-, hothers, hapart⟩ := List.nodup_append'.1 hnodup
    have hfreshFirst : ∀ id ∈ tree.ids, SameAt progress empty id := fun id hid => hfresh id (List.mem_append_left _ hid)
    have hfirst := visited_visit hforest (hgrown tree List.mem_cons_self) progress hfreshFirst
    have hmiddle := hfirst.sameAt_empty hapart fun id hid => hfresh id (List.mem_append_right _ hid)
    intro other hother p way hp
    have hid := Tree.mem_ids_of_mem_places hp
    rw [visitAllLog, attemptsFor_append]
    rcases List.mem_cons.1 hother with rfl | hother
    · -- in the first tree: the later visits log nothing for it
      have hrest : attemptsFor p.id ((progress.visit registry other).2.visitAllLog registry trees) = [] :=
        attemptsFor_eq_nil fun entry hentry same =>
          hapart hid (same ▸ id_of_mem_visitAllLog registry _ trees entry hentry)
      rw [hrest, List.append_nil]
      exact hvisit other List.mem_cons_self progress hfreshFirst p way hp
    · -- in a later tree: the first visit logs nothing for it
      have hnone : attemptsFor p.id (progress.visitLog registry tree) = [] :=
        attemptsFor_eq_nil fun entry hentry same =>
          hapart (same ▸ id_of_mem_visitLog registry progress tree entry hentry) (List.mem_flatMap.2 ⟨other, hother, hid⟩)
      rw [hnone, List.nil_append]
      exact ih (fun tree htree => hgrown tree (List.mem_cons_of_mem _ htree)) hothers
        (fun tree htree => hvisit tree (List.mem_cons_of_mem _ htree)) _ hmiddle other hother p way hp

/-- When the visit comes to an ancestor, the log of a settled primitive goes on widening. -/
theorem Widening.retried {below : List String} {scope : Scope} {layer : Layer}
    (h : Widening p scope log) (hsettled : middle.Settled p scope) (hp : p ∈ registry.primitives)
    (hnodup : below.Nodup) (hpending : middle.IsPending below p.id)
    (hscope : registry.scopeUpTo p ancestor = scope ++ [layer])
    (hcount : middle.evaluationsOf p.id = log.length)
    (hlast : middle.attempts.find? p.id = log.getLast?.map (·.outcome)) :
    Widening p (scope ++ [layer]) (log ++ attemptsFor p.id (middle.retryAllLog registry ancestor below)) := by
  have hlength : log.length ≤ scope.length := hcount ▸ hsettled.within
  by_cases hin : p.id ∈ below
  · rcases attemptsFor_retryAllLog hnodup hp hin middle with ⟨-, hnone⟩ | ⟨hopen, markup, hone⟩
    · rw [hnone, List.append_nil]
      exact h.wider hlength
    · rw [hone]
      have hdeferred := hpending.1 hin
      refine h.concat (hcount ▸ hsettled.evaluationsOf_eq hdeferred hopen) (fun last hfound => ?_) hscope rfl
      rw [hfound] at hlast
      rw [isOpen_of_find? hlast, hdeferred, hopen]
      rfl
  · have hnone : attemptsFor p.id (middle.retryAllLog registry ancestor below) = [] :=
      attemptsFor_eq_nil fun entry hentry same => hin (same ▸ id_of_mem_retryAllLog hentry)
    rw [hnone, List.append_nil]
    exact h.wider hlength

/-- In the visit of a whole tree every primitive is attempted in ever wider scopes, until an attempt is not open. -/
theorem widening_visit (hforest : registry.IsForest) (h : Tree.Grown registry above tree) (progress : Progress)
    (hfresh : ∀ id ∈ tree.ids, SameAt progress empty id) : ∀ p way, (p, way) ∈ tree.places [] →
      Widening p ((p :: way).map Primitive.layer) (attemptsFor p.id (progress.visitLog registry tree)) := by
  induction h generalizing progress with
  | @node p above children hlineage hids hbelow ih =>
    have hnode := Tree.Grown.node hlineage hids hbelow
    have hnodup := hnode.nodup_below hforest
    obtain ⟨-, hapart⟩ := hnode.pairwise_below hforest
    rw [Tree.ids_node] at hfresh
    have hfreshBelow : ∀ id ∈ children.flatMap Tree.ids, SameAt progress empty id := fun id hid =>
      hfresh id (List.mem_append_left _ hid)
    obtain ⟨hall, -⟩ := visitedAll_and_retried hforest hnode progress hfreshBelow
    have hwidening := widening_visitAll hforest hbelow hnodup ih progress hfreshBelow
    have hreplays := replays_visitAll registry progress children
    intro q way hq
    rw [visitLog]
    dsimp only
    generalize progress.visitAll registry children = visited at hall hreplays
    -- the log is that of the visits below, of the retries, and of the first attempt for the top
    obtain ⟨below, middle⟩ := visited
    dsimp only at hall hreplays ⊢
    rw [attemptsFor_append, attemptsFor_append]
    rw [Tree.places_node, List.mem_append, List.mem_flatMap, List.mem_singleton] at hq
    rcases hq with ⟨tree, htree, hq⟩ | hq
    · -- a primitive below: the retries go on from its own log
      obtain ⟨inner, hplace, rfl⟩ := Tree.mem_places_iff.1 hq
      have hid : q.id ∈ children.flatMap Tree.ids := List.mem_flatMap.2 ⟨tree, htree, Tree.mem_ids_of_mem_places hplace⟩
      have hother : p.id ≠ q.id := fun same => hapart (same ▸ hid)
      have hcount := hreplays.evaluationsOf q.id
      have hfound := hreplays.find?_attempts q.id
      rw [(hfreshBelow q.id hid).evaluationsOf] at hcount
      rw [(hfreshBelow q.id hid).attempt] at hfound
      rw [attemptsFor_beginLog, if_neg hother, List.append_nil, ← List.cons_append, List.map_append]
      refine (hwidening tree htree q inner hplace).retried (hall.settled tree htree q inner hplace)
        ((hbelow tree htree).registered_of_mem_places hplace) (hnodup.sublist hall.sublist) (hall.isPending hid)
        ((hbelow tree htree).scopeUpTo_of_mem_places hforest hplace) ?_ ?_
      · rw [hcount]
        exact Nat.zero_add _
      · rw [hfound]
        exact Option.or_none
    · -- the top: nothing is logged for it before its first attempt
      cases hq
      have hearlier : attemptsFor p.id (progress.visitAllLog registry children) = [] :=
        attemptsFor_eq_nil fun entry hentry same =>
          hapart (same ▸ id_of_mem_visitAllLog registry progress children entry hentry)
      have hretried : attemptsFor p.id (middle.retryAllLog registry p.id below) = [] :=
        attemptsFor_eq_nil fun entry hentry same =>
          hapart (same ▸ hall.sublist.subset (id_of_mem_retryAllLog hentry))
      rw [hearlier, hretried, attemptsFor_beginLog, if_pos rfl]
      have hnothing : Widening p [] [] := ⟨nofun, nofun, nofun⟩
      exact hnothing.concat rfl nofun rfl rfl

end Progress

end Prebake
