import Prebake.Proofs.Progress.Pattern
import Prebake.Proofs.Resolution

/-!
# Server values are opaque

What a page holds in its slots is not known when it is resolved, and neither are the slots told apart: giving them other names,
even one name to several of them, changes nothing but the markers in the markup (`Resolution.RenamedFrom`). The visits of the
trees have patterns that do not depend on the names, and all that a resolution tells is put together from these
(`resolve_renameSlots`).
-/

namespace Prebake

open Progress (Pattern)

variable {f : String → String}

/-! ## Giving each slot its own name -/

/-- Slots that keep their names are the slots that they were, in all that is given. -/
theorem Givens.renameSlots_self (givens : Givens) : Givens.renameSlots (fun slot => slot) givens = givens := by
  have hentry : ∀ entry ∈ givens, (entry.1, entry.2.renameSlots fun slot => slot) = entry := by
    rintro ⟨name, given⟩ -
    cases given <;> rfl
  exact (List.map_congr_left hentry).trans (List.map_id' givens)

theorem Primitive.renameSlots_self (p : Primitive) : p.renameSlots (fun slot => slot) = p := by
  rw [renameSlots, Givens.renameSlots_self, Givens.renameSlots_self]

theorem Registry.renameSlots_self (registry : Registry) : registry.renameSlots (fun slot => slot) = registry := by
  have hprimitives : registry.primitives.map (Primitive.renameSlots fun slot => slot) = registry.primitives :=
    (List.map_congr_left fun p _ => p.renameSlots_self).trans (List.map_id' _)
  obtain ⟨route?, primitives, nodup⟩ := registry
  simp only [renameSlots, hprimitives]

/-! ## Resolutions -/

/-- The tree with other names for its slots, where `template` is the template of its markup. -/
def ResolvedTree.renameSlots (f : String → String) (template : Template) (tree : ResolvedTree) : ResolvedTree :=
  ⟨tree.root, tree.rendered?.map fun rendered =>
    ⟨Template.markup f template, NameSet.ofList (rendered.slots.names.map f)⟩⟩

/-- A resolution that differs from another one in the names of slots only. What is open is open for the same reason, and what
is resolved fills the same template: `templates` has the template of each primitive that has markup, with the names that the
slots have in the other resolution. -/
structure Resolution.RenamedFrom (renamed resolution : Resolution) (f : String → String) (templates : String → Template) :
    Prop where
  states : ∀ id, (resolution.state? id = none ∧ renamed.state? id = none) ∨
    (∃ reason, resolution.state? id = some (.deferred reason) ∧ renamed.state? id = some (.deferred reason)) ∨
    (resolution.state? id = some (.resolved (Template.markup (fun slot => slot) (templates id))) ∧
      renamed.state? id = some (.resolved (Template.markup f (templates id))))
  evaluations : renamed.evaluations = resolution.evaluations
  stats : renamed.stats = resolution.stats
  trees : renamed.trees = resolution.trees.map fun tree => tree.renameSlots f (templates tree.root)
  /-- The markup of a tree fills its template, and the slots that are kept with it are those that are left open there. -/
  own : ∀ tree ∈ resolution.trees, ∀ rendered, tree.rendered? = some rendered →
    rendered.html = Template.markup (fun slot => slot) (templates tree.root) ∧
      ∀ slot, slot ∈ rendered.slots.names ↔ slot ∈ slotsIn (templates tree.root)

namespace Registry

variable {registry : Registry} {pending : Primitive → List String} {patterns : Primitive → Pattern} {root : Primitive}
  {id : String}

/-- The visits of all trees have these patterns and leave these primitives pending, whatever the slots are called. -/
def HasPatterns (registry : Registry) (pending : Primitive → List String) (patterns : Primitive → Pattern) : Prop :=
  ∀ root f, (registry.renameSlots f).visitTree (root.renameSlots f) = (pending root, (patterns root).filled f)

/-- The visit of each tree has a pattern. -/
theorem exists_patterns (registry : Registry) : ∃ pending patterns, registry.HasPatterns pending patterns := by
  choose pending patterns hvisit using Pattern.exists_visitTree registry
  exact ⟨pending, patterns, hvisit⟩

/-- What the patterns tell of all primitives. -/
def attemptPatterns (registry : Registry) (patterns : Primitive → Pattern) : NameMap (Except Reason Template) :=
  registry.roots.foldl (fun all root => all.union (patterns root).attempts) NameMap.empty

/-- The template of a primitive that is rendered. -/
def templateOf (registry : Registry) (patterns : Primitive → Pattern) (id : String) : Template :=
  (((registry.attemptPatterns patterns).find? id).bind Except.toOption).getD []

namespace HasPatterns

variable (h : registry.HasPatterns pending patterns)

include h

/-- With its slots as they are, a visit fills its pattern with them. -/
theorem visitTree (root : Primitive) : registry.visitTree root = (pending root, (patterns root).filled fun slot => slot) := by
  have hvisit := h root fun slot => slot
  rwa [renameSlots_self, Primitive.renameSlots_self] at hvisit

/-- A pattern tells nothing of what is not in its tree. -/
theorem find?_eq_none (hforest : registry.IsForest) (hroot : root ∈ registry.roots) (hid : id ∉ (registry.tree root).ids) :
    (patterns root).attempts.find? id = none := by
  have hnone := (hforest.sameAt_visitTree hroot hid).attempt
  rw [h.visitTree, Pattern.filled, NameMap.find?_mapValues] at hnone
  exact Option.map_eq_none_iff.1 hnone

/-- All patterns together tell of a primitive what the pattern of its tree tells. -/
theorem templateOf_eq (hforest : registry.IsForest) (hroot : root ∈ registry.roots) {template : Template}
    (htemplate : (patterns root).template? id = some template) : registry.templateOf patterns id = template := by
  have hfound : (patterns root).attempts.find? id = some (.ok template) := by
    unfold Pattern.template? at htemplate
    split at htemplate
    · rename_i hfound
      cases htemplate
      exact hfound
    · cases htemplate
  have htogether := hforest.find?_foldl_union (fun root hroot id hid => h.find?_eq_none hforest hroot hid) hroot hfound
    NameMap.empty
  rw [templateOf, attemptPatterns, htogether]
  rfl

/-- With renamed slots, the attempts are the same templates, filled with other names. -/
theorem attempts_renameSlots (f : String → String) : (registry.renameSlots f).attempts =
    (registry.attemptPatterns patterns).mapValues (Except.map (Template.rendered f)) := by
  have hempty : (NameMap.empty : NameMap Attempt) = NameMap.empty.mapValues (Except.map (Template.rendered f)) := rfl
  rw [attempts, attemptPatterns, roots_renameSlots, List.foldl_map, hempty]
  generalize (NameMap.empty : NameMap (Except Reason Template)) = first
  induction registry.roots generalizing first with
  | nil => rfl
  | cons root roots ih =>
    rw [List.foldl_cons, List.foldl_cons, ← ih, NameMap.mapValues_union, h root f]
    rfl

/-- What is told of a primitive is what the patterns tell of it, with the slots named. -/
theorem state?_renameSlots (f : String → String) (id : String) :
    ((registry.renameSlots f).addTrees Resolution.empty (registry.renameSlots f).roots).state? id =
      ((registry.attemptPatterns patterns).find? id).map fun outcome =>
        Attempt.state (outcome.map (Template.rendered f)) := by
  rw [Resolution.state?, states_eq_mapValues_attempts, h.attempts_renameSlots, NameMap.find?_mapValues,
    NameMap.find?_mapValues, Option.map_map]
  rfl

/-- The number of attempts is read off the patterns, which have no names in them. -/
theorem evaluations_renameSlots (f : String → String) :
    ((registry.renameSlots f).addTrees Resolution.empty (registry.renameSlots f).roots).evaluations =
      registry.roots.foldl (fun evaluations root => evaluations.union (patterns root).evaluations) NameMap.empty := by
  rw [evaluations_addTrees, roots_renameSlots, List.foldl_map]
  simp only [h _ f]
  rfl

/-- The trees of a resolution are the templates of its roots, filled with names. -/
theorem trees_renameSlots (f : String → String) :
    ((registry.renameSlots f).addTrees Resolution.empty (registry.renameSlots f).roots).trees =
      registry.roots.map fun root => ⟨root.id, ((patterns root).template? root.id).map (Template.rendered f)⟩ := by
  rw [trees_addTrees, roots_renameSlots, List.map_map]
  refine (List.nil_append _).trans (List.map_congr_left fun root _ => ?_)
  rw [Function.comp_apply, h root f, Pattern.rendered?_filled]
  rfl

/-- The counts over a tree do not depend on the names of slots. -/
theorem stats_resolveTree (root : Primitive) (f : String → String) :
    ((registry.renameSlots f).resolveTree (root.renameSlots f)).1.stats = (registry.resolveTree root).1.stats := by
  have hsize : ((patterns root).filled f).attempts.size = ((patterns root).filled fun slot => slot).attempts.size :=
    (List.length_map ..).trans (List.length_map ..).symm
  have hstats : ((registry.renameSlots f).resolveTree (root.renameSlots f)).1.stats =
      ((patterns root).filled f).stats (registry.renameSlots f) root.id (pending root) := by
    rw [resolveTree, h root f]
    rfl
  rw [hstats, resolveTree, h.visitTree]
  simp only [Progress.stats, distance_renameSlots, hsize]
  rfl

/-- Nothing is counted that depends on a name. -/
theorem stats_renameSlots (f : String → String) :
    ((registry.renameSlots f).addTrees Resolution.empty (registry.renameSlots f).roots).stats =
      (registry.addTrees Resolution.empty registry.roots).stats := by
  rw [stats_addTrees, stats_addTrees, roots_renameSlots, List.foldl_map]
  simp only [h.stats_resolveTree]

/-- With other names for the slots, the visits of all trees find the same up to these names. -/
theorem renamedFrom (hforest : registry.IsForest) (f : String → String) :
    ((registry.renameSlots f).addTrees Resolution.empty (registry.renameSlots f).roots).RenamedFrom
      (registry.addTrees Resolution.empty registry.roots) f (registry.templateOf patterns) := by
  have hstate := h.state?_renameSlots fun slot => slot
  have hevaluations := h.evaluations_renameSlots fun slot => slot
  have htrees := h.trees_renameSlots fun slot => slot
  -- the resolution itself is the one in which each slot keeps its name
  rw [renameSlots_self] at hstate hevaluations htrees
  have htemplate : ∀ root ∈ registry.roots, ∀ template, (patterns root).template? root.id = some template →
      registry.templateOf patterns root.id = template := fun root hroot _ => h.templateOf_eq hforest hroot
  constructor
  · intro id
    rw [hstate, h.state?_renameSlots f, templateOf]
    rcases (registry.attemptPatterns patterns).find? id with _ | (reason | template)
    · exact Or.inl ⟨rfl, rfl⟩
    · exact Or.inr (Or.inl ⟨reason, rfl, rfl⟩)
    · exact Or.inr (Or.inr ⟨rfl, rfl⟩)
  · rw [hevaluations, h.evaluations_renameSlots f]
  · exact h.stats_renameSlots f
  · rw [htrees, h.trees_renameSlots f, List.map_map]
    refine List.map_congr_left fun root hroot => ?_
    have hown := htemplate root hroot
    rw [Function.comp_apply, ResolvedTree.renameSlots]
    cases hrendered : (patterns root).template? root.id with
    | none => rfl
    | some template =>
      rw [hown template hrendered]
      refine congrArg (ResolvedTree.mk root.id) (congrArg some (congrArg (Rendered.mk _) ?_))
      exact NameSet.ext_names fun slot => by simp [Template.rendered]
  · intro tree htree rendered hrendered
    rw [htrees] at htree
    obtain ⟨root, hroot, rfl⟩ := List.mem_map.1 htree
    obtain ⟨template, hfound, rfl⟩ := Option.map_eq_some_iff.1 hrendered
    rw [htemplate root hroot template hfound]
    exact ⟨rfl, fun slot => by simp [Template.rendered]⟩

end HasPatterns

/-- Resolution does not look into slots. A valid registry whose slots are given other names, be they distinct or not, is
resolved as before: the same primitives have markup, and the others are deferred for the same reasons; they are attempted
equally often, and the statistics are the same. Each primitive with markup has a template that does not depend on the names,
so the markup is the same but for the marker of the new name wherever the marker of the old one stood, and the slots that are
kept with a tree are the new names of those that were kept with it before. -/
theorem resolve_renameSlots {config : Config} (hvalid : registry.validate = .ok ())
    (hpolicy : config.onUnresolvable = .deferToServe) :
    ∃ templates resolution, registry.resolve config = .ok resolution ∧
      ∀ f, ∃ renamed, (registry.renameSlots f).resolve config = .ok renamed ∧
        renamed.RenamedFrom resolution f templates := by
  obtain ⟨pending, patterns, hpatterns⟩ := registry.exists_patterns
  have hforest := (wellFormed_of_validate hvalid).forest
  refine ⟨registry.templateOf patterns, _, resolve_deferToServe hvalid hpolicy, fun f => ?_⟩
  exact ⟨_, resolve_deferToServe (validate_renameSlots hvalid) hpolicy, hpatterns.renamedFrom hforest f⟩

end Registry

/-- A letter to somebody whose first and last name are known to the server only. -/
def letter : Registry where
  route? := some "/letter"
  primitives := [
    (((Primitive.new "letter" "p").withProp "children" (.expression "`Dear ${first} ${last},`")).withBinding "first"
      (.slot "first")).withBinding "last" (.slot "last")]
  nodup := by decide

namespace Registry

/-- The two names in a letter become one, and the letter has its marker twice. -/
theorem letter_renamed : letter.validate = .ok () ∧
    (Config.withPolicy {} .deferToServe).onUnresolvable = .deferToServe ∧
    ∃ templates resolution renamed, letter.resolve (Config.withPolicy {} .deferToServe) = .ok resolution ∧
      (letter.renameSlots fun _ => "name").resolve (Config.withPolicy {} .deferToServe) = .ok renamed ∧
      renamed.RenamedFrom resolution (fun _ => "name") templates ∧
      resolution.state? "letter" = some (.resolved "<p>Dear __RUXY_SV_first__ __RUXY_SV_last__,</p>") ∧
      renamed.state? "letter" = some (.resolved "<p>Dear __RUXY_SV_name__ __RUXY_SV_name__,</p>") := by
  have hvalid : letter.validate = .ok () := by rfl
  have hpolicy : (Config.withPolicy {} .deferToServe).onUnresolvable = .deferToServe := rfl
  obtain ⟨templates, resolution, hresolve, hall⟩ := resolve_renameSlots hvalid hpolicy
  obtain ⟨renamed, hrenamed, hsame⟩ := hall fun _ => "name"
  obtain ⟨-, rfl⟩ := resolve_eq_ok hresolve
  obtain ⟨-, rfl⟩ := resolve_eq_ok hrenamed
  exact ⟨hvalid, hpolicy, templates, _, _, hresolve, hrenamed, hsame, by decide +kernel, by decide +kernel⟩

end Registry

end Prebake
