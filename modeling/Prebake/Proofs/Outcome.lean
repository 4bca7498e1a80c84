import Prebake.Proofs.Element
import Prebake.Proofs.Resolution

/-!
# How what has markup was rendered

A primitive that has markup in a resolution was rendered in the scope of its last attempt, from the markup that its children
have in the same resolution (`RenderedAs`): once rendered it is not attempted again, and it is rendered only after the last of
its children. So what has become of a primitive tells what has become of all primitives below it.
-/

namespace Prebake

open Relation

/-! ## Visited trees -/

namespace Progress

variable {progress : Progress} {p : Primitive} {scope : Scope} {rendered : Rendered}

/-- There is markup for a primitive if its latest attempt gave it. -/
theorem rendered?_eq_some_iff {id : String} :
    progress.rendered? id = some rendered ↔ progress.attempts.find? id = some (.ok rendered) := by
  unfold rendered?
  rcases progress.attempts.find? id with _ | (_ | _) <;> simp

/-- A settled primitive with markup was rendered in the layers of its last attempt, with the markup that its children have. -/
theorem Settled.exists_render (h : progress.Settled p scope) (hrendered : progress.rendered? p.id = some rendered) :
    ∃ children, p.children.map progress.rendered? = children.map some ∧
      p.render children (scope.take (progress.evaluationsOf p.id)) = .ok rendered := by
  have htrial := Option.some.inj (h.attempt.symm.trans (rendered?_eq_some_iff.1 hrendered))
  rw [trial_eq_of_not_isOpen (by rw [htrial]; rfl)] at htrial
  obtain ⟨children, hmap, hrender⟩ := Primitive.exists_markup_of_not_isOpen (by rw [htrial]; rfl)
  exact ⟨children, hmap, hrender.symm.trans htrial⟩

/-- The markup of a primitive that is settled starts with a tag. -/
theorem Settled.startsWithTag (h : progress.Settled p scope) (hrendered : progress.rendered? p.id = some rendered) :
    rendered.StartsWithTag := by
  obtain ⟨_, -, hrender⟩ := h.exists_render hrendered
  exact Primitive.startsWithTag_render hrender

end Progress

/-- Markup has what the primitive itself or one of its children puts there. So if a tree is settled, the markup of its top has
exactly what some primitive of the tree puts there. -/
theorem Tree.Grown.rendered_iff {registry : Registry} {progress : Progress} {above : List Primitive} {tree : Tree}
    {rendered : Rendered} (h : Tree.Grown registry above tree) (has : Rendered → Prop)
    (puts : Primitive → List Primitive → Prop)
    (hsettled : ∀ p way, (p, way) ∈ tree.places above → progress.Settled p ((p :: way).map Primitive.layer))
    (hstep : ∀ p way, (p, way) ∈ tree.places above → ∀ children rendered, (∀ child ∈ children, child.StartsWithTag) →
      p.render children (((p :: way).map Primitive.layer).take (progress.evaluationsOf p.id)) = .ok rendered →
        (has rendered ↔ puts p way ∨ ∃ child ∈ children, has child))
    (hrendered : progress.rendered? tree.top.id = some rendered) :
    has rendered ↔ ∃ p way, (p, way) ∈ tree.places above ∧ puts p way := by
  induction h generalizing rendered with
  | @node top above trees _ hids _ ih =>
    simp only [Tree.places_node, List.mem_append, List.mem_flatMap, List.mem_singleton] at hsettled hstep ⊢
    have hbelow : ∀ tree ∈ trees, ∀ q way, (q, way) ∈ tree.places (top :: above) →
        progress.Settled q ((q :: way).map Primitive.layer) := fun tree htree q way hq =>
      hsettled q way (Or.inl ⟨tree, htree, hq⟩)
    obtain ⟨children, hmap, hrender⟩ := (hsettled top above (Or.inr rfl)).exists_render hrendered
    -- the markup of the children is that of the tops of the trees below, so the induction goes up the tree
    rw [← hids, List.map_map] at hmap
    have hchild : ∀ child ∈ children, ∃ tree ∈ trees, progress.rendered? tree.top.id = some child := fun child hin =>
      List.mem_map.1 (hmap ▸ List.mem_map_of_mem hin)
    have htree : ∀ tree ∈ trees, ∃ child ∈ children, progress.rendered? tree.top.id = some child := by
      intro tree hin
      have hmarkup : progress.rendered? tree.top.id ∈ children.map some :=
        hmap ▸ List.mem_map_of_mem (f := fun tree => progress.rendered? tree.top.id) hin
      obtain ⟨child, hin, heq⟩ := List.mem_map.1 hmarkup
      exact ⟨child, hin, heq.symm⟩
    have htags : ∀ child ∈ children, child.StartsWithTag := by
      intro child hin
      obtain ⟨tree, htree, hrendered⟩ := hchild child hin
      exact (hbelow tree htree _ _ (Tree.top_mem_places _ tree)).startsWithTag hrendered
    have hih : ∀ tree ∈ trees, ∀ child, progress.rendered? tree.top.id = some child →
        (has child ↔ ∃ q way, (q, way) ∈ tree.places (top :: above) ∧ puts q way) := fun tree htree _ =>
      ih tree htree (hbelow tree htree) fun q way hq => hstep q way (Or.inl ⟨tree, htree, hq⟩)
    rw [hstep top above (Or.inr rfl) children rendered htags hrender]
    constructor
    · rintro (hputs | ⟨child, hin, hhas⟩)
      · exact ⟨top, above, Or.inr rfl, hputs⟩
      · obtain ⟨tree, htree, hrendered⟩ := hchild child hin
        obtain ⟨q, way, hq, hputs⟩ := (hih tree htree child hrendered).1 hhas
        exact ⟨q, way, Or.inl ⟨tree, htree, hq⟩, hputs⟩
    · rintro ⟨q, way, ⟨tree, hin, hq⟩ | hq, hputs⟩
      · obtain ⟨child, hchild, hrendered⟩ := htree tree hin
        exact Or.inr ⟨child, hchild, (hih tree hin child hrendered).2 ⟨q, way, hq, hputs⟩⟩
      · cases hq
        exact Or.inl hputs

/-- The scope of the last attempt for a primitive, with the primitives above it: as many layers, from its own outwards, as
there were attempts. -/
def Resolution.lastScope (resolution : Resolution) (p : Primitive) (way : List Primitive) : Scope :=
  ((p :: way).map Primitive.layer).take (resolution.evaluationsOf p.id)

namespace Registry

/-- How a primitive was rendered: at its place, in the scope of its last attempt and with the markup that its children have
in the resolution. -/
structure RenderedAs (registry : Registry) (resolution : Resolution) (p : Primitive) (way : List Primitive)
    (children : List Rendered) (rendered : Rendered) : Prop where
  place : (p, way) ∈ registry.places
  attempt : registry.attempts.find? p.id = some (.ok rendered)
  render : p.render children (resolution.lastScope p way) = .ok rendered
  children : p.children.map resolution.state? = children.map fun child => some (.resolved child.html)

variable {registry : Registry} {root p : Primitive} {way : List Primitive} {rendered : Rendered} {id html : String}

/-- A primitive in the tree of a root is placed in the registry. -/
theorem mem_places (hroot : root ∈ registry.roots) (hp : (p, way) ∈ (registry.tree root).places []) :
    (p, way) ∈ registry.places := List.mem_flatMap.2 ⟨root, hroot, hp⟩

/-- The last scope of a primitive is as wide as the number of attempts for it in the visit of its tree. -/
theorem IsForest.lastScope_eq (hforest : registry.IsForest) (hroot : root ∈ registry.roots)
    (hp : (p, way) ∈ (registry.tree root).places []) :
    (registry.addTrees Resolution.empty registry.roots).lastScope p way =
      ((p :: way).map Primitive.layer).take ((registry.visitTree root).2.evaluationsOf p.id) := by
  rw [Resolution.lastScope, hforest.evaluationsOf_addTrees hroot (Tree.mem_ids_of_mem_places hp)]

/-- What has markup after a resolution is a primitive that a visit rendered. -/
theorem IsForest.exists_place_of_state? (hforest : registry.IsForest) {id html : String}
    (hstate : (registry.addTrees Resolution.empty registry.roots).state? id = some (.resolved html)) :
    ∃ root ∈ registry.roots, ∃ p way rendered, (p, way) ∈ (registry.tree root).places [] ∧ p.id = id ∧
      (registry.visitTree root).2.rendered? p.id = some rendered ∧ rendered.html = html := by
  rw [Resolution.state?, states_eq_mapValues_attempts, NameMap.find?_mapValues, Option.map_eq_some_iff] at hstate
  obtain ⟨attempt, hattempt, hresolved⟩ := hstate
  have hexists : ∃ root ∈ registry.roots, id ∈ (registry.tree root).ids := by
    by_contra hnot
    rw [hforest.find?_attempts_of_forall_not_mem fun root hroot hid => hnot ⟨root, hroot, hid⟩] at hattempt
    cases hattempt
  obtain ⟨root, hroot, hid⟩ := hexists
  rw [hforest.find?_attempts hroot hid] at hattempt
  obtain ⟨p, way, hp, rfl⟩ := Tree.exists_mem_places [] hid
  cases attempt with
  | error reason => cases hresolved
  | ok rendered =>
    cases hresolved
    exact ⟨root, hroot, p, way, rendered, hp, rfl, Progress.rendered?_eq_some_iff.2 hattempt, rfl⟩

/-- A primitive that a visit rendered was rendered as `RenderedAs` says. -/
theorem IsForest.exists_renderedAs (hforest : registry.IsForest) (hroot : root ∈ registry.roots)
    (hp : (p, way) ∈ (registry.tree root).places [])
    (hrendered : (registry.visitTree root).2.rendered? p.id = some rendered) :
    ∃ children, registry.RenderedAs (registry.addTrees Resolution.empty registry.roots) p way children rendered ∧
      ∀ child ∈ children, child.StartsWithTag := by
  have hgrown := hforest.grown_tree hroot
  have hsettled := (hforest.visited_visitTree hroot).settled
  obtain ⟨children, hmap, hrender⟩ := (hsettled p way hp).exists_render hrendered
  refine ⟨children, ⟨mem_places hroot hp, ?_, hforest.lastScope_eq hroot hp ▸ hrender, ?_⟩, fun child hchild => ?_⟩
  · rw [hforest.find?_attempts hroot (Tree.mem_ids_of_mem_places hp)]
    exact Progress.rendered?_eq_some_iff.1 hrendered
  · have hstate : ∀ id ∈ p.children, (registry.addTrees Resolution.empty registry.roots).state? id =
        ((registry.visitTree root).2.rendered? id).map fun child => .resolved child.html := by
      intro id hid
      have hin : (registry.visitTree root).2.rendered? id ∈ children.map some := hmap ▸ List.mem_map_of_mem hid
      obtain ⟨child, -, hchild⟩ := List.mem_map.1 hin
      rw [← hchild, Resolution.state?, states_eq_mapValues_attempts, NameMap.find?_mapValues,
        hforest.find?_attempts hroot (hgrown.child_mem_ids hp hid), Progress.rendered?_eq_some_iff.1 hchild.symm]
      rfl
    have hstates := congrArg (List.map (Option.map fun child : Rendered => State.resolved child.html)) hmap
    rw [List.map_map, List.map_map] at hstates
    exact (List.map_congr_left hstate).trans hstates
  · have hin : some child ∈ p.children.map (registry.visitTree root).2.rendered? := hmap ▸ List.mem_map_of_mem hchild
    obtain ⟨id, hid, hmarkup⟩ := List.mem_map.1 hin
    obtain ⟨c, hc, rfl⟩ := hgrown.exists_child_place hp hid
    exact (hsettled c (p :: way) hc).startsWithTag hmarkup

/-! ## Resolutions -/

section Resolution

variable {config : Config} {resolution : Resolution} (hresolve : registry.resolve config = .ok resolution)

include hresolve

/-- What has markup in a resolution is a registered primitive that was rendered as `RenderedAs` says. -/
theorem exists_renderedAs_of_state? (hstate : resolution.state? id = some (.resolved html)) :
    ∃ p way children rendered, p ∈ registry.primitives ∧ p.id = id ∧ rendered.html = html ∧
      registry.RenderedAs resolution p way children rendered ∧ ∀ child ∈ children, child.StartsWithTag := by
  obtain ⟨hvalid, rfl⟩ := resolve_eq_ok hresolve
  have hforest := (wellFormed_of_validate hvalid).forest
  obtain ⟨root, hroot, p, way, rendered, hp, hid, hrendered, hhtml⟩ := hforest.exists_place_of_state? hstate
  obtain ⟨children, hrenderedAs, htags⟩ := hforest.exists_renderedAs hroot hp hrendered
  have hregistered := (hforest.grown_tree hroot).registered_of_mem_places hp
  exact ⟨p, way, children, rendered, hregistered, hid, hhtml, hrenderedAs, htags⟩

/-- A child of a primitive with markup has markup. -/
theorem exists_state?_of_lists {child : String} (hstate : resolution.state? id = some (.resolved html))
    (hlists : registry.Lists id child) : ∃ markup, resolution.state? child = some (.resolved markup) := by
  obtain ⟨p, way, children, rendered, hp, hid, -, hrenderedAs, -⟩ := exists_renderedAs_of_state? hresolve hstate
  obtain ⟨q, hq, hsame, hchild⟩ := hlists
  rw [eq_of_id_eq hq hp (hsame.trans hid.symm)] at hchild
  have hin : resolution.state? child ∈ p.children.map resolution.state? := List.mem_map_of_mem hchild
  rw [hrenderedAs.children] at hin
  obtain ⟨rendered, -, hmarkup⟩ := List.mem_map.1 hin
  exact ⟨rendered.html, hmarkup.symm⟩

/-- Whatever is below a primitive with markup has markup. -/
theorem exists_state?_of_reflTransGen {below : String} (hstate : resolution.state? id = some (.resolved html))
    (hdown : ReflTransGen registry.Lists id below) : ∃ markup, resolution.state? below = some (.resolved markup) := by
  induction hdown with
  | refl => exact ⟨html, hstate⟩
  | tail _ hlists ih =>
    obtain ⟨markup, hmarkup⟩ := ih
    exact exists_state?_of_lists hresolve hmarkup hlists

end Resolution

end Registry

end Prebake
