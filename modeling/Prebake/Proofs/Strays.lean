import Prebake.Proofs.Manifest
import Prebake.Proofs.Markup.Underscores
import Prebake.Proofs.Policies

/-!
# Markers in the names of attributes

Everything that is written into markup is neutralized but the names of attributes, and the names that a valid registry may
hold leave room for whole markers. Where everything given is a slot or a literal without underscores, such names are the only
source of markers that stand for no slot, and a build fails because of a stray marker exactly if there is one
(`prerender_stray_iff`).
-/

namespace Prebake

open Marker Markup

/-! ## What is given without underscores -/

namespace Json

mutual

/-- No string in a JSON value holds an underscore, and no key does. -/
def Underscoreless : Json → Prop
  | string s => '_' ∉ s.toList
  | array items => ItemsUnderscoreless items
  | object fields => FieldsUnderscoreless fields
  | _ => True

/-- No item of a list holds an underscore. -/
def ItemsUnderscoreless : List Json → Prop
  | [] => True
  | item :: items => Underscoreless item ∧ ItemsUnderscoreless items

/-- No field of an object holds an underscore, neither in its name nor in its value. -/
def FieldsUnderscoreless : List (String × Json) → Prop
  | [] => True
  | (name, item) :: fields => '_' ∉ name.toList ∧ Underscoreless item ∧ FieldsUnderscoreless fields

end

end Json

namespace Value

mutual

/-- A literal without underscores has a value without underscores. -/
theorem underscoreless_ofJson : ∀ json : Json, json.Underscoreless → (ofJson json).Underscoreless
  | .null, _ | .bool _, _ | .whole _, _ | .decimal _, _ => trivial
  | .string _, h => h
  | .array items, h => itemsUnderscoreless_ofJsonItems items h
  | .object fields, h => fieldsUnderscoreless_ofJsonFields fields h

/-- Literal items without underscores have values without underscores. -/
theorem itemsUnderscoreless_ofJsonItems : ∀ items : List Json, Json.ItemsUnderscoreless items →
    ItemsUnderscoreless (ofJsonItems items)
  | [], _ => trivial
  | item :: items, ⟨hitem, hitems⟩ => ⟨underscoreless_ofJson item hitem, itemsUnderscoreless_ofJsonItems items hitems⟩

/-- Literal fields without underscores have values without underscores. -/
theorem fieldsUnderscoreless_ofJsonFields : ∀ fields : List (String × Json), Json.FieldsUnderscoreless fields →
    FieldsUnderscoreless (ofJsonFields fields)
  | [], _ => trivial
  | (_, item) :: fields, ⟨hname, hitem, hfields⟩ =>
    ⟨hname, underscoreless_ofJson item hitem, fieldsUnderscoreless_ofJsonFields fields hfields⟩

end

end Value

namespace Given

/-- What is given is a slot, or a literal in which no string and no key holds an underscore. -/
def Underscoreless : Given → Prop
  | slot _ => True
  | literal json => json.Underscoreless
  | expression _ | unclassified _ => False

variable {given : Given} {scope : Scope} {prop : String} {value : Value}

/-- A slot or a literal needs no scope. -/
theorem Underscoreless.writtenValue?_eq (h : given.Underscoreless) (scope : Scope) (prop : String) :
    given.writtenValue? scope prop = given.writtenValue? [] prop := by
  cases given with
  | slot name => rfl
  | literal json => rfl
  | expression source => exact h.elim
  | unclassified source => exact h.elim

/-- What is given without underscores has a value without underscores to be written. -/
theorem Underscoreless.writtenValue (h : given.Underscoreless) (hvalue : given.writtenValue? scope prop = some value) :
    value.Underscoreless := by
  unfold writtenValue? at hvalue
  split at hvalue
  · cases hvalue
  · cases given with
    | slot name =>
      cases hvalue
      exact List.forall_mem_singleton.2 trivial
    | literal json =>
      cases hvalue
      exact Value.underscoreless_ofJson json h
    | expression source => exact h.elim
    | unclassified source => exact h.elim

end Given

namespace Primitive

/-- Whatever is given to a primitive is a slot or a literal without underscores. -/
def Underscoreless (p : Primitive) : Prop :=
  (∀ name given, (name, given) ∈ p.props → given.Underscoreless) ∧
    ∀ name given, (name, given) ∈ p.bindings → given.Underscoreless

variable {p : Primitive} (h : p.Underscoreless) (scope : Scope)

include h

/-- Where nothing is an expression, the attributes do not depend on the scope. -/
theorem Underscoreless.attributes_eq : p.props.attributes scope = p.props.attributes [] :=
  List.filterMap_congr fun prop hprop => by rw [(h.1 prop.1 prop.2 hprop).writtenValue?_eq scope]

/-- Where nothing is an expression, the content does not depend on the scope. -/
theorem Underscoreless.content_eq : p.props.content scope = p.props.content [] :=
  List.flatMap_congr fun prop hprop => by rw [(h.1 prop.1 prop.2 hprop).writtenValue?_eq scope]

/-- Where nothing is an expression, the slots do not depend on the scope. -/
theorem Underscoreless.slots_eq : p.slots scope = p.slots [] := by
  rw [slots, slots, h.attributes_eq, h.content_eq]

/-- Where nothing is an expression, the markers do not depend on the scope. -/
theorem Underscoreless.markers_eq : p.markers scope = p.markers [] := by
  rw [markers, markers, h.attributes_eq, h.content_eq]

/-- Nothing that is written for such a primitive has to be neutralized. -/
theorem Underscoreless.not_overlapping : ∀ run ∈ p.literalRuns scope, ¬overlappingOpenings <:+: run.toList := by
  intro run hrun
  rcases List.mem_append.1 hrun with hrun | hrun
  · obtain ⟨attr, hattr, hrun⟩ := List.mem_flatMap.1 hrun
    obtain ⟨prop, given, value, hprop, hwritten, -, hvalue⟩ := Givens.exists_of_mem_attributes hattr
    exact Value.not_overlapping_of_toAttribute ((h.1 prop given hprop).writtenValue hwritten) hvalue run hrun
  · refine not_overlapping_of_underscoreless (fun segment hsegment => ?_) run hrun
    obtain ⟨⟨name, given⟩, hprop, hsegment⟩ := List.mem_flatMap.1 hsegment
    obtain ⟨value, hwritten, hsegment⟩ := List.mem_flatMap.1 hsegment
    unfold Value.contentAs at hsegment
    split at hsegment
    · exact Value.underscoreless_content value ((h.1 name given hprop).writtenValue (Option.mem_toList.1 hwritten)) _ hsegment
    · cases hsegment

end Primitive

/-! ## Verification -/

/-- The check of a tree fails with a stray marker and in no other way. -/
theorem OutputTree.eq_strayMarker_of_verify {tree : OutputTree} {failure : Failure} (h : tree.verify = .error failure) :
    ∃ marker, failure = .strayMarker tree.root marker := by
  unfold verify at h
  split at h
  · cases h
    exact ⟨_, rfl⟩
  · cases h

/-- A tree with markup is rejected exactly if a scan finds the marker of no slot of the tree. -/
theorem OutputTree.verify_ofResolved_eq_error_iff {root : String} {rendered : Rendered} :
    (∃ failure, (ofResolved ⟨root, some rendered⟩).verify = .error failure) ↔
      ∃ marker ∈ scan rendered.html, ∀ slot ∈ rendered.slots.names, ofSlot slot ≠ marker := by
  have hlisted : ∀ marker, (Manifest.ofSlots rendered.slots.names).contains marker = true ↔
      ∃ slot ∈ rendered.slots.names, ofSlot slot = marker := fun marker =>
    NameMap.mem_names_iff.symm.trans Manifest.mem_names_ofSlots
  constructor
  · rintro ⟨failure, h⟩
    cases hstray : (ofResolved ⟨root, some rendered⟩).html?.bind (ofResolved ⟨root, some rendered⟩).manifest.firstStray? with
    | none =>
      rw [verify, hstray] at h
      cases h
    | some marker =>
      have hunlisted := List.find?_some hstray
      refine ⟨marker, List.mem_of_find?_eq_some hstray, fun slot hslot heq => ?_⟩
      rw [show (ofResolved ⟨root, some rendered⟩).manifest.contains marker = true from (hlisted marker).2 ⟨slot, hslot, heq⟩]
        at hunlisted
      cases hunlisted
  · rintro ⟨marker, hmarker, hunlisted⟩
    cases hstray : (ofResolved ⟨root, some rendered⟩).html?.bind (ofResolved ⟨root, some rendered⟩).manifest.firstStray? with
    | none =>
      have hfound := List.find?_eq_none.1 hstray marker hmarker
      rw [Bool.not_eq_true', Bool.not_eq_false] at hfound
      obtain ⟨slot, hslot, heq⟩ := (hlisted marker).1 hfound
      exact absurd heq (hunlisted slot hslot)
    | some stray => exact ⟨.strayMarker root stray, by rw [verify, hstray]; rfl⟩

/-- The check of all trees fails with a stray marker and in no other way. -/
theorem eq_strayMarker_of_outputTrees {trees : List ResolvedTree} {failure : Failure}
    (h : outputTrees true trees = .error failure) : ∃ root marker, failure = .strayMarker root marker := by
  induction trees with
  | nil => cases h
  | cons tree trees ih =>
    rcases bind_eq_error_iff.1 h with hverify | ⟨_, -, h⟩
    · obtain ⟨marker, rfl⟩ := OutputTree.eq_strayMarker_of_verify hverify
      exact ⟨_, marker, rfl⟩
    · rcases bind_eq_error_iff.1 h with hrest | ⟨_, -, h⟩
      · exact ih hrest
      · cases h

/-- Trees are rejected together exactly if one of them is. -/
theorem outputTrees_eq_error_iff {trees : List ResolvedTree} : (∃ failure, outputTrees true trees = .error failure) ↔
    ∃ tree ∈ trees, ∃ failure, (OutputTree.ofResolved tree).verify = .error failure := by
  induction trees with
  | nil => simp [outputTrees]
  | cons tree trees ih =>
    rw [List.exists_mem_cons_iff, ← ih]
    have hstep : outputTrees true (tree :: trees) = (OutputTree.ofResolved tree).verify >>= fun _ =>
        outputTrees true trees >>= fun others => .ok (OutputTree.ofResolved tree :: others) := rfl
    rw [hstep]
    cases (OutputTree.ofResolved tree).verify with
    | error failure => simp [bind, Except.bind]
    | ok _ => cases outputTrees true trees <;> simp [bind, Except.bind]

/-! ## Registries -/

namespace Registry

/-- Whatever is given to a primitive is a slot or a literal without underscores. -/
def Underscoreless (registry : Registry) : Prop := ∀ p ∈ registry.primitives, p.Underscoreless

/-- A primitive in the tree of a root writes a slot. -/
def WritesSlot (registry : Registry) (root : Primitive) (slot : String) : Prop :=
  ∃ p ∈ registry.primitives, p.id ∈ (registry.tree root).ids ∧ slot ∈ p.slots []

/-- A primitive in the tree of a root writes a marker in the name of an attribute. -/
def NamesMarker (registry : Registry) (root : Primitive) (marker : String) : Prop :=
  ∃ p ∈ registry.primitives, p.id ∈ (registry.tree root).ids ∧ marker ∈ p.nameMarkers []

variable {registry : Registry} {config : Config} {root : Primitive} {rendered : Rendered}

/-- The places of a tree are those of the primitives with an id in it. -/
theorem IsForest.exists_place_iff (hforest : registry.IsForest) (hroot : root ∈ registry.roots) {q : Primitive → Prop} :
    (∃ p way, (p, way) ∈ (registry.tree root).places [] ∧ q p) ↔
      ∃ p ∈ registry.primitives, p.id ∈ (registry.tree root).ids ∧ q p := by
  have hgrown := hforest.grown_tree hroot
  constructor
  · rintro ⟨p, way, hp, hq⟩
    exact ⟨p, hgrown.registered_of_mem_places hp, Tree.mem_ids_of_mem_places hp, hq⟩
  · rintro ⟨p, hp, hid, hq⟩
    obtain ⟨other, way, hother, hsame⟩ := Tree.exists_mem_places [] hid
    rw [eq_of_id_eq (hgrown.registered_of_mem_places hother) hp hsame] at hother
    exact ⟨p, way, hother, hq⟩

section Rendered

variable (hwell : registry.WellFormed) (hplain : registry.Underscoreless) (hroot : root ∈ registry.roots)
  (hrendered : (registry.visitTree root).2.rendered? root.id = some rendered)

include hwell hplain hroot hrendered

/-- The slots kept with the markup of a tree are those that its primitives write. -/
theorem mem_slots_rendered_iff {slot : String} : slot ∈ rendered.slots.names ↔ registry.WritesSlot root slot := by
  have hgrown := hwell.forest.grown_tree hroot
  have htop : (registry.visitTree root).2.rendered? (registry.tree root).top.id = some rendered := by
    rwa [tree_top]
  rw [hgrown.mem_slots_iff (hwell.forest.visited_visitTree hroot).settled htop, WritesSlot,
    ← hwell.forest.exists_place_iff hroot]
  refine exists_congr fun p => exists_congr fun way => and_congr_right fun hp => ?_
  rw [(hplain p (hgrown.registered_of_mem_places hp)).slots_eq]

/-- A scan of the markup of a tree finds the markers in the names of its attributes and the markers of its slots. -/
theorem mem_scan_rendered_iff {marker : String} : marker ∈ scan rendered.html ↔
    registry.NamesMarker root marker ∨ ∃ slot, registry.WritesSlot root slot ∧ ofSlot slot = marker := by
  have hgrown := hwell.forest.grown_tree hroot
  have htop : (registry.visitTree root).2.rendered? (registry.tree root).top.id = some rendered := by
    rwa [tree_top]
  have hplace : ∀ p way, (p, way) ∈ (registry.tree root).places [] → p.Underscoreless := fun p way hp =>
    hplain p (hgrown.registered_of_mem_places hp)
  have hmarkers : marker ∈ scan rendered.html ↔
      ∃ p ∈ registry.primitives, p.id ∈ (registry.tree root).ids ∧ marker ∈ p.markers [] := by
    rw [hgrown.mem_scan_iff hwell.primitives (hwell.forest.visited_visitTree hroot).settled
      (fun p way hp => (hplace p way hp).not_overlapping _) htop, ← hwell.forest.exists_place_iff hroot]
    refine exists_congr fun p => exists_congr fun way => and_congr_right fun hp => ?_
    rw [(hplace p way hp).markers_eq]
  rw [hmarkers]
  simp only [Primitive.mem_markers_iff]
  constructor
  · rintro ⟨p, hp, hid, hname | ⟨slot, hslot, hof⟩⟩
    · exact Or.inl ⟨p, hp, hid, hname⟩
    · exact Or.inr ⟨slot, ⟨p, hp, hid, hslot⟩, hof⟩
  · rintro (⟨p, hp, hid, hname⟩ | ⟨slot, ⟨p, hp, hid, hslot⟩, hof⟩)
    · exact ⟨p, hp, hid, Or.inl hname⟩
    · exact ⟨p, hp, hid, Or.inr ⟨slot, hslot, hof⟩⟩

/-- A tree is rejected exactly if the name of an attribute in it holds a marker of no slot of the tree. -/
theorem verify_rendered_eq_error_iff :
    (∃ failure, (OutputTree.ofResolved ⟨root.id, some rendered⟩).verify = .error failure) ↔
      ∃ marker, registry.NamesMarker root marker ∧ ∀ slot, registry.WritesSlot root slot → ofSlot slot ≠ marker := by
  have hslots : ∀ slot, slot ∈ rendered.slots.names ↔ registry.WritesSlot root slot := fun _ =>
    mem_slots_rendered_iff hwell hplain hroot hrendered
  rw [OutputTree.verify_ofResolved_eq_error_iff]
  simp only [mem_scan_rendered_iff hwell hplain hroot hrendered, hslots]
  constructor
  · rintro ⟨marker, hnames | ⟨slot, hslot, hof⟩, hstray⟩
    · exact ⟨marker, hnames, hstray⟩
    · exact absurd hof (hstray slot hslot)
  · rintro ⟨marker, hnames, hstray⟩
    exact ⟨marker, Or.inl hnames, hstray⟩

end Rendered

/-- No registry that is valid fails to be resolved because of a marker. -/
theorem resolve_ne_strayMarker (hvalid : registry.validate = .ok ()) (id marker : String) :
    registry.resolve config ≠ .error (.strayMarker id marker) := by
  intro h
  rw [resolve, hvalid] at h
  obtain ⟨root, hroot, hfailure⟩ := exists_root_of_resolveTrees_eq_error h
  rw [failure?_resolveTree] at hfailure
  split at hfailure
  · cases hfailure
  · cases hfailure

/-- The trees with markup are those of the roots that their visits rendered. -/
theorem mem_trees_rendered_iff (hroot : root ∈ registry.roots) :
    ⟨root.id, some rendered⟩ ∈ (registry.addTrees Resolution.empty registry.roots).trees ↔
      (registry.visitTree root).2.rendered? root.id = some rendered := by
  rw [mem_trees_addTrees]
  constructor
  · rintro ⟨other, hother, heq⟩
    obtain ⟨hid, hrendered⟩ := ResolvedTree.mk.inj heq
    rwa [eq_of_id_eq (List.mem_filter.1 hother).1 (List.mem_filter.1 hroot).1 hid] at hrendered
  · intro hrendered
    exact ⟨root, hroot, by rw [hrendered]⟩

/-- If all that is given is a slot or a literal without underscores, a scan of the markup of a tree finds the markers of the slots
that the primitives of the tree write, and otherwise only what the names of its attributes hold; and the build fails because
of a stray marker exactly if such a name in a tree with markup holds a marker that is the marker of no slot of this tree. -/
theorem prerender_stray_iff (hvalid : registry.validate = .ok ()) (hplain : registry.Underscoreless)
    (hverify : config.verifyMarkers = true) :
    (∀ resolution, registry.resolve config = .ok resolution → ∀ root ∈ registry.roots, ∀ rendered,
      ⟨root.id, some rendered⟩ ∈ resolution.trees →
        (∀ slot, slot ∈ rendered.slots.names ↔ registry.WritesSlot root slot) ∧
        ∀ marker, marker ∈ scan rendered.html ↔
          registry.NamesMarker root marker ∨ ∃ slot, registry.WritesSlot root slot ∧ ofSlot slot = marker) ∧
    ((∃ id marker, registry.prerender config = .error (.strayMarker id marker)) ↔
      ∃ resolution, registry.resolve config = .ok resolution ∧ ∃ root ∈ registry.roots, ∃ rendered,
        ⟨root.id, some rendered⟩ ∈ resolution.trees ∧
          ∃ marker, registry.NamesMarker root marker ∧ ∀ slot, registry.WritesSlot root slot → ofSlot slot ≠ marker) := by
  have hwell := wellFormed_of_validate hvalid
  constructor
  · intro resolution hresolve root hroot rendered htree
    obtain ⟨-, rfl⟩ := resolve_eq_ok hresolve
    have hrendered := (mem_trees_rendered_iff hroot).1 htree
    exact ⟨fun _ => mem_slots_rendered_iff hwell hplain hroot hrendered,
      fun _ => mem_scan_rendered_iff hwell hplain hroot hrendered⟩
  · -- the build resolves the registry and then checks the trees, and only the check finds stray markers
    have hprerender : registry.prerender config = registry.resolve config >>= fun resolution =>
        outputTrees true resolution.trees >>= fun trees =>
          .ok { route? := registry.route?, trees := trees, states := resolution.states, stats := resolution.stats } := by
      rw [← hverify]
      rfl
    rw [hprerender]
    constructor
    · rintro ⟨id, marker, h⟩
      rcases bind_eq_error_iff.1 h with hresolve | ⟨resolution, hresolve, h⟩
      · exact absurd hresolve (resolve_ne_strayMarker hvalid id marker)
      rcases bind_eq_error_iff.1 h with houtput | ⟨_, -, h⟩
      · obtain ⟨tree, htree, hrejected⟩ := outputTrees_eq_error_iff.1 ⟨_, houtput⟩
        obtain ⟨-, rfl⟩ := resolve_eq_ok hresolve
        obtain ⟨root, hroot, rfl⟩ := mem_trees_addTrees.1 htree
        cases hrendered : (registry.visitTree root).2.rendered? root.id with
        -- a tree without markup passes the check
        | none =>
          rw [hrendered] at hrejected
          obtain ⟨failure, hrejected⟩ := hrejected
          cases hrejected
        | some rendered =>
          rw [hrendered] at hrejected htree
          exact ⟨_, hresolve, root, hroot, rendered, htree,
            (verify_rendered_eq_error_iff hwell hplain hroot hrendered).1 hrejected⟩
      · cases h
    · rintro ⟨resolution, hresolve, root, hroot, rendered, htree, hstray⟩
      obtain ⟨-, rfl⟩ := resolve_eq_ok hresolve
      have hrendered := (mem_trees_rendered_iff hroot).1 htree
      have hrejected := (verify_rendered_eq_error_iff hwell hplain hroot hrendered).2 hstray
      obtain ⟨failure, houtput⟩ := outputTrees_eq_error_iff.2 ⟨_, htree, hrejected⟩
      obtain ⟨id, marker, rfl⟩ := eq_strayMarker_of_outputTrees houtput
      exact ⟨id, marker, bind_eq_error_iff.2 (Or.inr ⟨_, hresolve, bind_eq_error_iff.2 (Or.inl houtput)⟩)⟩

end Registry

/-- A page with an attribute whose name is a marker. Its content is a slot. -/
def markedPage : Registry where
  route? := some "/"
  primitives := [((Primitive.new "page" "p").withProp "__RUXY_SV_x__" (.literal (.bool true))).withProp "children" (.slot "name")]
  nodup := by decide

namespace Registry

/-- The marked page has its underscores in the name of a property only. -/
theorem underscoreless_markedPage : markedPage.Underscoreless := by
  intro p hp
  obtain rfl := List.mem_singleton.1 hp
  refine ⟨fun name given hprop => ?_, fun name given hbinding => absurd hbinding List.not_mem_nil⟩
  rcases List.mem_pair.1 hprop with hprop | hprop
  · cases hprop
    trivial
  · cases hprop
    trivial

/-- The build of the marked page fails with the marker that is the name of its property. -/
theorem prerender_markedPage : markedPage.prerender {} = .error (.strayMarker "page" "__RUXY_SV_x__") := by
  have hresolve : markedPage.resolve {} = .ok (markedPage.addTrees Resolution.empty markedPage.roots) := by rfl
  have houtput : (outputTrees true (markedPage.addTrees Resolution.empty markedPage.roots).trees).map (fun _ => ()) =
      .error (.strayMarker "page" "__RUXY_SV_x__") := by
    decide +kernel
  refine bind_eq_error_iff.2 (Or.inr ⟨_, hresolve, bind_eq_error_iff.2 (Or.inl ?_)⟩)
  show outputTrees true _ = _
  cases htrees : outputTrees true (markedPage.addTrees Resolution.empty markedPage.roots).trees with
  | error failure =>
    rw [htrees] at houtput
    exact congrArg Except.error (Except.error.inj houtput)
  | ok trees =>
    rw [htrees] at houtput
    cases houtput

/-- A valid registry without underscores in what is given may fail because of a stray marker: the name of an attribute is written
as it stands. -/
theorem markedPage_strays : markedPage.validate = .ok () ∧ markedPage.Underscoreless ∧
    ({} : Config).verifyMarkers = true ∧ markedPage.prerender {} = .error (.strayMarker "page" "__RUXY_SV_x__") :=
  ⟨by rfl, underscoreless_markedPage, rfl, prerender_markedPage⟩

/-- No slot of the marked page stands behind the marker that its property is named for. -/
theorem markedPage_names_stray : markedPage.validate = .ok () ∧ markedPage.Underscoreless ∧
    ({} : Config).verifyMarkers = true ∧ ∃ root ∈ markedPage.roots, ∃ marker, markedPage.NamesMarker root marker ∧
      ∀ slot, markedPage.WritesSlot root slot → ofSlot slot ≠ marker := by
  have hvalid : markedPage.validate = .ok () := by rfl
  obtain ⟨-, hstray⟩ := @prerender_stray_iff _ {} hvalid underscoreless_markedPage rfl
  obtain ⟨-, -, root, hroot, -, -, marker, hnames, hslots⟩ := hstray.1 ⟨"page", "__RUXY_SV_x__", prerender_markedPage⟩
  exact ⟨hvalid, underscoreless_markedPage, rfl, root, hroot, marker, hnames, hslots⟩

end Registry

end Prebake
