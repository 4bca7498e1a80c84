import Prebake.Output
import Prebake.Proofs.Markup.Slots
import Prebake.Proofs.Outcome

/-!
# Markers and manifests

Every marker in the markup of a tree stands for a slot that is kept with the markup, and every such slot has its marker
there: what one element writes (`Primitive.mem_markers_iff`) is carried up the tree by induction. So the manifest of a
tree lists the markers of its markup and no others, and no stray marker is found (`resolve_markers_exact`). All this needs
literal texts without overlapping openings, since only these are neutralized completely.
-/

namespace Prebake

open Marker

/-! ## Output trees -/

/-- The manifest of an output tree with exact markup lists the markers of the markup. -/
theorem Rendered.IsExact.mem_manifest {root marker : String} {rendered : Rendered} (h : rendered.IsExact) :
    marker ∈ (OutputTree.ofResolved ⟨root, some rendered⟩).manifest.names ↔ marker ∈ scan rendered.html :=
  Manifest.mem_names_ofSlots.trans (h marker).symm

/-- An output tree with exact markup is verified. -/
theorem Rendered.IsExact.verify {root : String} {rendered : Rendered} (h : rendered.IsExact) :
    (OutputTree.ofResolved ⟨root, some rendered⟩).verify = .ok () := by
  have hstray : (OutputTree.ofResolved ⟨root, some rendered⟩).html?.bind
      (OutputTree.ofResolved ⟨root, some rendered⟩).manifest.firstStray? = none :=
    Manifest.firstStray?_eq_none fun marker hmarker => h.mem_manifest.2 hmarker
  rw [OutputTree.verify, hstray]

/-! ## Visited trees -/

section

variable {registry : Registry} {progress : Progress} {above : List Primitive} {tree : Tree} {p : Primitive} {way : List Primitive}
  {rendered : Rendered}

/-- The slots kept with the markup of the top of a tree are those that the primitives of the tree write. -/
theorem Tree.Grown.mem_slots_iff (h : Tree.Grown registry above tree)
    (hsettled : ∀ p way, (p, way) ∈ tree.places above → progress.Settled p ((p :: way).map Primitive.layer))
    (hrendered : progress.rendered? tree.top.id = some rendered) {slot : String} : slot ∈ rendered.slots.names ↔
      ∃ q below, (q, below) ∈ tree.places above ∧
        slot ∈ q.slots (((q :: below).map Primitive.layer).take (progress.evaluationsOf q.id)) := by
  refine h.rendered_iff (fun rendered => slot ∈ rendered.slots.names) (fun q below => slot ∈ q.slots _) hsettled
    (fun q below hq children rendered htags hrender => ?_) hrendered
  exact Primitive.mem_slots_render (fun child hchild hempty => absurd hempty (htags child hchild).ne_nil) hrender

/-- A scan of the markup of the top of a tree finds the markers that the primitives of the tree write, if no literal text holds
overlapping openings. -/
theorem Tree.Grown.mem_scan_iff (h : Tree.Grown registry above tree) (hwell : ∀ p ∈ registry.primitives, p.WellFormed)
    (hsettled : ∀ p way, (p, way) ∈ tree.places above → progress.Settled p ((p :: way).map Primitive.layer))
    (hquiet : ∀ q below, (q, below) ∈ tree.places above →
      ∀ run ∈ q.literalRuns (((q :: below).map Primitive.layer).take (progress.evaluationsOf q.id)),
        ¬overlappingOpenings <:+: run.toList)
    (hrendered : progress.rendered? tree.top.id = some rendered) {marker : String} : marker ∈ scan rendered.html ↔
      ∃ q below, (q, below) ∈ tree.places above ∧
        marker ∈ q.markers (((q :: below).map Primitive.layer).take (progress.evaluationsOf q.id)) := by
  refine h.rendered_iff (fun rendered => marker ∈ scan rendered.html) (fun q below => marker ∈ q.markers _) hsettled
    (fun q below hq children rendered htags hrender => ?_) hrendered
  have htag := (hwell q (h.registered_of_mem_places hq)).tag
  rw [Primitive.scan_render_markers (hquiet q below hq) htags htag hrender, List.mem_append, List.mem_flatMap]

/-- The markup of a primitive in a whole tree is exact if no literal text of the primitive or of one below it holds overlapping
openings. -/
theorem Tree.Grown.isExact (h : Tree.Grown registry above tree) (hwell : ∀ p ∈ registry.primitives, p.WellFormed)
    (hnames : ∀ p ∈ registry.primitives, ∀ name given, (name, given) ∈ p.props → Quiet name.toList)
    (hsettled : ∀ p way, (p, way) ∈ tree.places above → progress.Settled p ((p :: way).map Primitive.layer))
    (hp : (p, way) ∈ tree.places above) (hrendered : progress.rendered? p.id = some rendered)
    (hquiet : ∀ q below, (q, below) ∈ tree.places above → p.id ∈ (q :: below).map (·.id) →
      ∀ run ∈ q.literalRuns (((q :: below).map Primitive.layer).take (progress.evaluationsOf q.id)),
        ¬overlappingOpenings <:+: run.toList) : rendered.IsExact := by
  obtain ⟨subtree, hgrown, rfl, hbelow⟩ := h.exists_subtree hp
  have hsettledBelow := fun q way hq => hsettled q way (hbelow q way hq).1
  intro marker
  rw [hgrown.mem_scan_iff hwell hsettledBelow (fun q way hq => hquiet q way (hbelow q way hq).1 (hbelow q way hq).2) hrendered]
  simp only [hgrown.mem_slots_iff hsettledBelow hrendered]
  constructor
  · rintro ⟨q, below, hq, hmarker⟩
    rw [Primitive.markers_eq_of_quiet (hnames q (hgrown.registered_of_mem_places hq)), List.mem_map] at hmarker
    obtain ⟨slot, hslot, hof⟩ := hmarker
    exact ⟨slot, ⟨q, below, hq, hslot⟩, hof⟩
  · rintro ⟨slot, ⟨q, below, hq, hslot⟩, hof⟩
    exact ⟨q, below, hq, Primitive.mem_markers_iff.2 (Or.inr ⟨slot, hslot, hof⟩)⟩

end

/-! ## Resolved registries -/

namespace Registry

/-- No literal text that was written for a primitive, or for one below it, holds overlapping openings. -/
def IsQuietBelow (registry : Registry) (resolution : Resolution) (id : String) : Prop :=
  ∀ p way, (p, way) ∈ registry.places → id ∈ (p :: way).map (·.id) →
    ∀ run ∈ p.literalRuns (resolution.lastScope p way), ¬overlappingOpenings <:+: run.toList

variable {registry : Registry} {root p : Primitive} {way : List Primitive} {rendered : Rendered}

/-- A primitive that a visit rendered is exact if no literal text of it or below it holds overlapping openings. -/
theorem WellFormed.isExact (hwell : registry.WellFormed)
    (hnames : ∀ p ∈ registry.primitives, ∀ name given, (name, given) ∈ p.props → Quiet name.toList)
    (hroot : root ∈ registry.roots) (hp : (p, way) ∈ (registry.tree root).places [])
    (hrendered : (registry.visitTree root).2.rendered? p.id = some rendered)
    (hquiet : registry.IsQuietBelow (registry.addTrees Resolution.empty registry.roots) p.id) : rendered.IsExact := by
  have hforest := hwell.forest
  refine (hforest.grown_tree hroot).isExact hwell.primitives hnames (hforest.visited_visitTree hroot).settled hp hrendered
    fun q below hq hin => ?_
  rw [← hforest.lastScope_eq hroot hq]
  exact hquiet q below (mem_places hroot hq) hin

/-- The markers in the markup of a primitive are those of its attributes, then those of its content, then those in the
markup of each child, and they are the markers of the slots that are kept with the markup; so the manifest of a tree lists
the markers of its markup and no others, and the tree is verified. This needs names of properties without an opening, and
literal texts without overlapping openings. -/
theorem resolve_markers_exact {config : Config} {resolution : Resolution} (hresolve : registry.resolve config = .ok resolution)
    (hnames : ∀ p ∈ registry.primitives, ∀ name given, (name, given) ∈ p.props → ¬opening <:+: name.toList) :
    (∀ id html, resolution.state? id = some (.resolved html) → registry.IsQuietBelow resolution id →
      ∃ p way children rendered, p.id = id ∧ rendered.html = html ∧
        registry.RenderedAs resolution p way children rendered ∧
        scan html = (p.slots (resolution.lastScope p way)).map ofSlot ++ children.flatMap (fun child => scan child.html) ∧
        ∀ marker, marker ∈ scan html ↔ ∃ slot ∈ rendered.slots.names, ofSlot slot = marker) ∧
    ∀ tree ∈ resolution.trees, ∀ rendered, tree.rendered? = some rendered →
      registry.IsQuietBelow resolution tree.root →
      (∀ marker, marker ∈ (OutputTree.ofResolved tree).manifest.names ↔ marker ∈ scan rendered.html) ∧
        (OutputTree.ofResolved tree).verify = .ok () := by
  obtain ⟨hvalid, rfl⟩ := resolve_eq_ok hresolve
  have hwell := wellFormed_of_validate hvalid
  have hforest := hwell.forest
  constructor
  · intro id html hstate hquiet
    obtain ⟨root, hroot, p, way, rendered, hp, rfl, hrendered, rfl⟩ := hforest.exists_place_of_state? hstate
    obtain ⟨children, hrenderedAs, htags⟩ := hforest.exists_renderedAs hroot hp hrendered
    have hregistered := (hforest.grown_tree hroot).registered_of_mem_places hp
    have hscan := Primitive.scan_render (hquiet p way hrenderedAs.place List.mem_cons_self) htags
      (hwell.primitives p hregistered).tag (hnames p hregistered) hrenderedAs.render
    exact ⟨p, way, children, rendered, rfl, rfl, hrenderedAs, hscan, hwell.isExact hnames hroot hp hrendered hquiet⟩
  · intro tree htree rendered hrendered hquiet
    rw [trees_addTrees] at htree
    obtain ⟨root, hroot, rfl⟩ := List.mem_map.1 htree
    have htop := Tree.top_mem_places [] (registry.tree root)
    rw [tree_top] at htop
    have hexact := hwell.isExact hnames hroot htop hrendered hquiet
    dsimp only at hrendered
    rw [hrendered]
    exact ⟨fun marker => hexact.mem_manifest, hexact.verify⟩

/-- The manifest of the titled page lists what is in its markup, and so it passes the check. -/
theorem titledPage_markers_exact :
    ∃ resolution, titledPage.resolve (Config.withPolicy {} .deferToServe) = .ok resolution ∧
      (∀ p ∈ titledPage.primitives, ∀ name given, (name, given) ∈ p.props → ¬opening <:+: name.toList) ∧
      titledPage.IsQuietBelow resolution "page" ∧
      (∃ rendered : Rendered, resolution.state? "page" = some (.resolved rendered.html) ∧ rendered.IsExact) ∧
      ∃ tree ∈ resolution.trees, tree.root = "page" ∧ tree.rendered?.isSome = true ∧
        (OutputTree.ofResolved tree).verify = .ok () := by
  have hresolve : titledPage.resolve (Config.withPolicy {} .deferToServe) =
      .ok (titledPage.addTrees Resolution.empty titledPage.roots) := resolve_deferToServe (by rfl) rfl
  have hnames : ∀ p ∈ titledPage.primitives, ∀ prop ∈ p.props, ¬opening <:+: prop.1.toList := by decide
  have hruns : ∀ place ∈ titledPage.places, ∀ run ∈ place.1.literalRuns
      ((titledPage.addTrees Resolution.empty titledPage.roots).lastScope place.1 place.2),
      ¬overlappingOpenings <:+: run.toList := by decide
  have hquiet : titledPage.IsQuietBelow (titledPage.addTrees Resolution.empty titledPage.roots) "page" :=
    fun p way hp _ => hruns (p, way) hp
  have hresolved : ((titledPage.addTrees Resolution.empty titledPage.roots).state? "page").map State.isResolved =
      some true := by rfl
  have htree : ((titledPage.addTrees Resolution.empty titledPage.roots).tree? "page").map (·.rendered?.isSome) =
      some true := by rfl
  obtain ⟨hnodes, htrees⟩ := resolve_markers_exact hresolve fun p hp name given hprop => hnames p hp (name, given) hprop
  obtain ⟨state, hstate, hresolved⟩ := Option.map_eq_some_iff.1 hresolved
  obtain ⟨tree, htree, hrendered⟩ := Option.map_eq_some_iff.1 htree
  have hmem := List.mem_of_find?_eq_some htree
  have hroot : tree.root = "page" := by simpa using List.find?_some htree
  refine ⟨_, hresolve, fun p hp name given hprop => hnames p hp (name, given) hprop, hquiet, ?_,
    tree, hmem, hroot, hrendered, ?_⟩
  · cases state with
    | deferred reason => cases hresolved
    | resolved html =>
      obtain ⟨_, _, _, rendered, -, rfl, -, -, hexact⟩ := hnodes "page" html hstate hquiet
      exact ⟨rendered, hstate, hexact⟩
  · obtain ⟨rendered, hsome⟩ := Option.isSome_iff_exists.1 hrendered
    exact (htrees tree hmem rendered hsome (hroot ▸ hquiet)).2

end Registry

end Prebake
