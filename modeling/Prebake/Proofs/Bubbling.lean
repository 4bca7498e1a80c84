import Prebake.Proofs.Coverage
import Prebake.Proofs.Progress.Log

/-!
# How far primitives bubble

The attempts for a primitive are made in its own layer first, and then in one more layer each time, up to its root at most. A
resolution tells how many there were, and that number tells where they ended (`Resolution.Bubbles`): at the first scope in
which the primitive was rendered, at the first in which an obstacle was met that no scope removes, or else at the root
(`resolve_bubbles`).
-/

namespace Prebake

/-- Whether an attempt met an obstacle that no scope removes. -/
def Attempt.isNotComputable : Attempt → Bool
  | .error (.notComputable _ _) => true
  | _ => false

/-- The attempts that the visits of all trees make. -/
def Registry.log (registry : Registry) : List LoggedAttempt :=
  registry.roots.flatMap fun root => Progress.empty.visitLog registry (registry.tree root)

/-- What a resolution tells of the attempts for a primitive, of which `log` is the list; `way` are the primitives above it. -/
structure Resolution.Bubbles (resolution : Resolution) (p : Primitive) (way : List Primitive) (log : List LoggedAttempt) :
    Prop where
  evaluations : resolution.evaluationsOf p.id = log.length
  state : resolution.state? p.id = log.getLast?.map (·.outcome.state)
  /-- The attempt after `k` others was made in the layers of the primitive and of its `k` nearest ancestors. -/
  scopes : ∀ k entry, log[k]? = some entry → k ≤ way.length ∧
    entry.scope = ((p :: way).take (k + 1)).map Primitive.layer ∧ ∃ markup, entry.outcome = p.attempt markup entry.scope
  resolved : ∀ html, resolution.state? p.id = some (.resolved html) →
    ∃ k, log.findIdx? (·.outcome.isResolved) = some k ∧ resolution.evaluationsOf p.id = 1 + k
  notComputable : ∀ prop obstacle, resolution.state? p.id = some (.deferred (.notComputable prop obstacle)) →
    ∃ k, log.findIdx? (·.outcome.isNotComputable) = some k ∧ resolution.evaluationsOf p.id = 1 + k
  deferred : ∀ reason, resolution.state? p.id = some (.deferred reason) →
    (∀ prop obstacle, reason ≠ .notComputable prop obstacle) → resolution.evaluationsOf p.id = 1 + way.length
  bounded : resolution.evaluationsOf p.id ≤ 1 + way.length
  /-- No attempt follows one that gave markup or met an obstacle that no scope removes. -/
  final : ∀ k entry, log[k]? = some entry → entry.outcome.isResolved = true ∨ entry.outcome.isNotComputable = true →
    k + 1 = log.length

/-- If nothing comes of all items but one, what comes of all of them is what comes of that one. -/
private theorem flatMap_eq_of_forall_ne {α β : Type} {items : List α} {item : α} {f : α → List β} (hnodup : items.Nodup)
    (hitem : item ∈ items) (hothers : ∀ other ∈ items, other ≠ item → f other = []) : items.flatMap f = f item := by
  obtain ⟨before, after, rfl⟩ := List.append_of_mem hitem
  obtain ⟨-, hafter, hapart⟩ := List.nodup_append'.1 hnodup
  have hbeforeNil : before.flatMap f = [] := List.flatMap_eq_nil_iff.2 fun other hother =>
    hothers other (List.mem_append_left _ hother) fun same => hapart (same ▸ hother) List.mem_cons_self
  have hafterNil : after.flatMap f = [] := List.flatMap_eq_nil_iff.2 fun other hother =>
    hothers other (List.mem_append_right _ (List.mem_cons_of_mem _ hother)) fun same =>
      (List.nodup_cons.1 hafter).1 (same ▸ hother)
  rw [List.flatMap_append, List.flatMap_cons, hbeforeNil, hafterNil, List.nil_append, List.append_nil]

/-! ## The attempts for one primitive -/

section Log

variable {p : Primitive} {scope : Scope} {log : List LoggedAttempt} {last : LoggedAttempt}

/-- An attempt is open if it has neither markup nor an obstacle that stays. -/
theorem Attempt.isOpen_iff {attempt : Attempt} :
    attempt.isOpen = true ↔ attempt.isResolved = false ∧ attempt.isNotComputable = false := by
  rcases attempt with (_ | _ | _ | _) | _ <;> simp [isOpen, isResolved, isNotComputable, Reason.isRetryable]

/-- Markup is told of attempts only that were resolved. -/
theorem Attempt.isResolved_of_state {attempt : Attempt} {html : String} (h : attempt.state = .resolved html) :
    attempt.isResolved = true := by
  cases attempt with
  | ok rendered => rfl
  | error reason => cases h

/-- A reason is told of the attempts that failed with it. -/
theorem Attempt.eq_error_of_state {attempt : Attempt} {reason : Reason} (h : attempt.state = .deferred reason) :
    attempt = .error reason := by
  cases attempt with
  | ok rendered => cases h
  | error other =>
    cases h
    rfl

/-- If only the last attempt is not open, it is the first of which something is true that is true of no open attempt. -/
theorem Progress.Widening.exists_findIdx? {q : Attempt → Bool} (h : Progress.Widening p scope log)
    (hq : ∀ attempt : Attempt, attempt.isOpen = true → q attempt = false) (hlast : log.getLast? = some last)
    (hfound : q last.outcome = true) : ∃ k, log.findIdx? (fun entry => q entry.outcome) = some k ∧ log.length = 1 + k := by
  rw [List.getLast?_eq_getElem?] at hlast
  obtain ⟨hlt, hget⟩ := List.getElem?_eq_some_iff.1 hlast
  refine ⟨log.length - 1, ?_, by omega⟩
  refine List.findIdx?_eq_some_iff_getElem.2 ⟨hlt, hget ▸ hfound, fun k hk => ?_⟩
  have hopen := h.earlier k log[k] (List.getElem?_eq_getElem (by omega)) (by omega)
  rw [hq _ hopen]
  exact Bool.false_ne_true

end Log

namespace Registry

variable {registry : Registry} {root p : Primitive} {way : List Primitive} {id : String}

/-- The attempts for a primitive are made in the visit of its tree. -/
theorem IsForest.attemptsFor_log (hforest : registry.IsForest) (hroot : root ∈ registry.roots)
    (hid : id ∈ (registry.tree root).ids) :
    attemptsFor id registry.log = attemptsFor id (Progress.empty.visitLog registry (registry.tree root)) := by
  have hnodup : registry.roots.Nodup := registry.nodup.of_map.filter _
  have hothers : ∀ other ∈ registry.roots, other ≠ root →
      attemptsFor id (Progress.empty.visitLog registry (registry.tree other)) = [] := by
    intro other hother hne
    refine attemptsFor_eq_nil fun entry hentry same => hne ?_
    exact hforest.root_unique hother hroot (same ▸ Progress.id_of_mem_visitLog registry _ _ entry hentry) hid
  rw [log, attemptsFor, List.filter_flatMap]
  exact flatMap_eq_of_forall_ne hnodup hroot hothers

section Tree

variable (hforest : registry.IsForest) (hroot : root ∈ registry.roots) (hp : (p, way) ∈ (registry.tree root).places [])

include hforest hroot hp

/-- The log tells as many attempts for a primitive as are counted. -/
theorem IsForest.evaluationsOf_eq_length : (registry.addTrees Resolution.empty registry.roots).evaluationsOf p.id =
    (attemptsFor p.id registry.log).length := by
  have hid := Tree.mem_ids_of_mem_places hp
  have hreplays := Progress.replays_visit registry Progress.empty (registry.tree root)
  rw [hforest.evaluationsOf_addTrees hroot hid, hforest.attemptsFor_log hroot hid]
  exact (hreplays.evaluationsOf p.id).trans (Nat.zero_add _)

/-- The last attempt for a primitive is what is told of it. -/
theorem IsForest.state?_eq_getLast? : (registry.addTrees Resolution.empty registry.roots).state? p.id =
    (attemptsFor p.id registry.log).getLast?.map (·.outcome.state) := by
  have hid := Tree.mem_ids_of_mem_places hp
  have hfound := (Progress.replays_visit registry Progress.empty (registry.tree root)).find?_attempts p.id
  have hnothing : Progress.empty.attempts.find? p.id = none := rfl
  rw [hnothing, Option.or_none] at hfound
  rw [hforest.state?_addTrees hroot hid, state?_resolveTree, hforest.attemptsFor_log hroot hid, visitTree, hfound,
    Option.map_map]
  rfl

/-- The log of a forest tells of one attempt for each scope that a primitive gets, from its own layer up. -/
theorem IsForest.widening_log :
    Progress.Widening p ((p :: way).map Primitive.layer) (attemptsFor p.id registry.log) := by
  rw [hforest.attemptsFor_log hroot (Tree.mem_ids_of_mem_places hp)]
  exact Progress.widening_visit hforest (hforest.grown_tree hroot) Progress.empty
    (fun _ _ => Progress.SameAt.refl _ _) p way hp

/-- A primitive is not attempted more often than there are layers up to its root, and exactly as often if the last attempt
leaves it open. -/
theorem IsForest.length_attemptsFor : (attemptsFor p.id registry.log).length ≤ 1 + way.length ∧
    ∀ last, (attemptsFor p.id registry.log).getLast? = some last → last.outcome.isOpen = true →
      (attemptsFor p.id registry.log).length = 1 + way.length := by
  have hid := Tree.mem_ids_of_mem_places hp
  have hreplays := Progress.replays_visit registry Progress.empty (registry.tree root)
  have hsettled := (hforest.visited_visitTree hroot).settled p way hp
  have hcount := (hforest.evaluationsOf_addTrees hroot hid).symm.trans (hforest.evaluationsOf_eq_length hroot hp)
  have hlength : ((p :: way).map Primitive.layer).length = 1 + way.length := by simp [Nat.add_comm]
  rw [← hcount, ← hlength]
  refine ⟨hsettled.within, fun last hlast hopen => hsettled.exhausted ?_⟩
  have hfound := hreplays.find?_attempts p.id
  rw [← hforest.attemptsFor_log hroot hid, hlast] at hfound
  have hattempt : some last.outcome = _ := hfound.symm.trans hsettled.attempt
  rwa [← Option.some.inj hattempt]

/-- The log of the attempts for a primitive tells what `Bubbles` says. -/
theorem IsForest.bubbles :
    (registry.addTrees Resolution.empty registry.roots).Bubbles p way (attemptsFor p.id registry.log) := by
  have hcount := hforest.evaluationsOf_eq_length hroot hp
  have hstate := hforest.state?_eq_getLast? hroot hp
  have hwidening := hforest.widening_log hroot hp
  obtain ⟨hbounded, hexhausted⟩ := hforest.length_attemptsFor hroot hp
  generalize attemptsFor p.id registry.log = log at *
  generalize registry.addTrees Resolution.empty registry.roots = whole at *
  have hlast : ∀ state, whole.state? p.id = some state → ∃ last, log.getLast? = some last ∧ last.outcome.state = state :=
    fun state htold => Option.map_eq_some_iff.1 (hstate.symm.trans htold)
  constructor
  · exact hcount
  · exact hstate
  · intro k entry hentry
    have hk := (List.getElem?_eq_some_iff.1 hentry).1
    refine ⟨by omega, ?_, hwidening.outcomes entry (List.mem_of_getElem? hentry)⟩
    rw [hwidening.scopes k entry hentry, List.map_take]
  · -- a resolved primitive: its last attempt is the first that is resolved
    intro html htold
    obtain ⟨last, hfound, hsame⟩ := hlast _ htold
    have hresolved := Attempt.isResolved_of_state hsame
    rw [hcount]
    exact hwidening.exists_findIdx? (fun _ hopen => (Attempt.isOpen_iff.1 hopen).1) hfound hresolved
  · -- one that is not computable: its last attempt is the first in which this was found
    intro prop obstacle htold
    obtain ⟨last, hfound, hsame⟩ := hlast _ htold
    have hblocked : last.outcome.isNotComputable = true := by
      rw [Attempt.eq_error_of_state hsame]
      rfl
    rw [hcount]
    exact hwidening.exists_findIdx? (fun _ hopen => (Attempt.isOpen_iff.1 hopen).2) hfound hblocked
  · -- any other deferred one: its last attempt is open, so it was made in all scopes
    intro reason htold hother
    obtain ⟨last, hfound, hsame⟩ := hlast _ htold
    rw [hcount]
    refine hexhausted last hfound ?_
    rw [Attempt.eq_error_of_state hsame]
    cases reason with
    | notComputable prop obstacle => exact absurd rfl (hother prop obstacle)
    | missingBinding prop name => rfl
    | runtimeOnly prop name => rfl
    | deferredChild child => rfl
  · rw [hcount]
    exact hbounded
  · -- an attempt that decides is the last one, as all earlier ones are open
    intro k entry hentry hfinal
    by_contra hmore
    have hk := (List.getElem?_eq_some_iff.1 hentry).1
    obtain ⟨hresolved, hblocked⟩ := Attempt.isOpen_iff.1 (hwidening.earlier k entry hentry (by omega))
    rcases hfinal with hfinal | hfinal
    · exact Bool.false_ne_true (hresolved.symm.trans hfinal)
    · exact Bool.false_ne_true (hblocked.symm.trans hfinal)

end Tree

/-- Bubbling is bounded, and the number of attempts tells where it ended. The attempts for a primitive are made in its own
layer and then in one more layer of its ancestors each time. A resolved primitive was attempted until it was first rendered,
one that is not computable until this was first found; any other deferred primitive was attempted in all scopes up to its root.
So a primitive is attempted at most once more than it has ancestors, and not again after it was rendered or found not to be
computable. -/
theorem resolve_bubbles {config : Config} {resolution : Resolution} (hresolve : registry.resolve config = .ok resolution) :
    ∀ p ∈ registry.primitives, ∃ root ∈ registry.roots, ∃ way, registry.IsLineage (p :: way) ∧
      (p :: way).getLast? = some root ∧ registry.distance p.id root.id = way.length ∧
      resolution.Bubbles p way (attemptsFor p.id registry.log) := by
  obtain ⟨hvalid, rfl⟩ := resolve_eq_ok hresolve
  have hforest := (wellFormed_of_validate hvalid).forest
  intro p hp
  obtain ⟨root, hroot, hid⟩ := hforest.exists_root hp
  obtain ⟨q, way, hplace, hsame⟩ := Tree.exists_mem_places [] hid
  have hgrown := hforest.grown_tree hroot
  obtain rfl : q = p := eq_of_id_eq (hgrown.registered_of_mem_places hplace) hp hsame
  have hlineage := hgrown.lineage_of_mem_places hplace
  have hlast := Tree.getLast?_of_mem_places hplace
  rw [tree_top] at hlast
  exact ⟨root, hroot, way, hlineage, hlast, hlineage.distance_eq hforest hlast, hforest.bubbles hroot hplace⟩

/-- The title is rendered at the root, the greeting is given up there, and the hint is not attempted twice. -/
theorem namelessPage_bubbles :
    ∃ resolution, namelessPage.resolve (Config.withPolicy {} .deferToServe) = .ok resolution ∧
      ["title", "greeting", "hint", "box", "page"].map resolution.evaluationsOf = [3, 3, 1, 2, 1] ∧
      ∀ p ∈ namelessPage.primitives, ∃ root ∈ namelessPage.roots, ∃ way,
        namelessPage.distance p.id root.id = way.length ∧
        resolution.Bubbles p way (attemptsFor p.id namelessPage.log) := by
  have hresolve : namelessPage.resolve (Config.withPolicy {} .deferToServe) =
      .ok (namelessPage.addTrees Resolution.empty namelessPage.roots) := resolve_deferToServe (by rfl) rfl
  refine ⟨_, hresolve, by rfl, fun p hp => ?_⟩
  obtain ⟨root, hroot, way, -, -, hdistance, hbubbles⟩ := resolve_bubbles hresolve p hp
  exact ⟨root, hroot, way, hdistance, hbubbles⟩

end Registry

end Prebake
