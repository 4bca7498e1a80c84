import Prebake.Proofs.Except
import Prebake.Proofs.Markup.Written
import Prebake.Proofs.Registry.Validity
import Prebake.Rendering

/-!
# What is written for an element

A primitive that is rendered becomes a start tag with the attributes among its properties, the content among them, the
markup of its children and an end tag (`Primitive.toList_html_render`). No marker crosses from one of these into the next,
so a scan finds the markers of the attributes, then those of the content, then those of each child
(`Primitive.scan_render_markers`). Those that a primitive writes itself are the markers of its slots, and whatever stands in the
names of its attributes (`Primitive.mem_markers_iff`).
-/

namespace Prebake

open Marker Markup

variable {scope : Scope}

/-! ## Properties -/

/-- The attribute that a value becomes under the name of a property, with its name, if it becomes one. -/
def Value.attributeAs? (prop : String) (value : Value) : Option (String × Attribute) :=
  if isContent prop then none else (value.toAttribute prop).toOption.map fun attr => (attributeName prop, attr)

/-- The content that a value becomes under the name of a property, if it becomes any. -/
def Value.contentAs (prop : String) (value : Value) : List Segment :=
  if isContent prop then value.content.segments else []

/-- The value of a property in a scope, if the property is written and has one. -/
def Given.writtenValue? (scope : Scope) (prop : String) (given : Given) : Option Value :=
  if isSkipped prop then none else (given.eval scope).toOption

namespace Givens

/-- The attributes among properties in a scope, in the order of the properties. -/
def attributes (props : Givens) (scope : Scope) : List (String × Attribute) :=
  props.filterMap fun prop => (prop.2.writtenValue? scope prop.1).bind (Value.attributeAs? prop.1)

/-- The content among properties in a scope, in the order of the properties. -/
def content (props : Givens) (scope : Scope) : List Segment :=
  props.flatMap fun prop => (prop.2.writtenValue? scope prop.1).toList.flatMap (Value.contentAs prop.1)

/-- Each attribute is what the value of a property becomes. -/
theorem exists_of_mem_attributes {props : Givens} {attr : String × Attribute} (h : attr ∈ props.attributes scope) :
    ∃ prop given value, (prop, given) ∈ props ∧ given.writtenValue? scope prop = some value ∧
      attr.1 = attributeName prop ∧ value.toAttribute prop = .ok attr.2 := by
  obtain ⟨⟨prop, given⟩, hprop, hfound⟩ := List.mem_filterMap.1 h
  obtain ⟨value, hvalue, hattr⟩ := Option.bind_eq_some_iff.1 hfound
  unfold Value.attributeAs? at hattr
  split at hattr
  · cases hattr
  · obtain ⟨written, hwritten, rfl⟩ := Option.map_eq_some_iff.1 hattr
    refine ⟨prop, given, value, hprop, hvalue, rfl, ?_⟩
    cases hof : value.toAttribute prop with
    | error obstacle =>
      rw [hof] at hwritten
      cases hwritten
    | ok attr =>
      rw [hof] at hwritten
      cases hwritten
      rfl

end Givens

namespace Primitive

/-- The slots that a primitive itself writes in a scope: those of its attributes, then those of its content. -/
def slots (p : Primitive) (scope : Scope) : List String :=
  (p.props.attributes scope).flatMap (·.2.slots) ++ slotsIn (p.props.content scope)

/-- The longest runs of literal text that a primitive itself writes in a scope. -/
def literalRuns (p : Primitive) (scope : Scope) : List String :=
  (p.props.attributes scope).flatMap (·.2.literalRuns) ++ Prebake.literalRuns (p.props.content scope)

end Primitive

/-! ## Attributes one after the other -/

/-- What is written for attributes. -/
def writtenAttributes (attributes : List (String × Attribute)) : List Char := attributes.flatMap fun attr => attr.2.written attr.1

/-- No marker that starts before the attributes reaches into them. -/
theorem bounded_writtenAttributes (attributes : List (String × Attribute)) : Bounded (writtenAttributes attributes) := by
  induction attributes with
  | nil => exact .nil
  | cons attr attributes ih => exact (attr.2.bounded_written attr.1).append ih

/-- The markers in attributes: those in the name of each, then those of its slots. -/
def markersInAttributes (attributes : List (String × Attribute)) : List String :=
  attributes.flatMap fun attr => attr.2.nameMarkers attr.1 ++ attr.2.slots.map ofSlot

/-- A scan of attributes finds the markers of one after the other. -/
theorem markersIn_writtenAttributes {attributes : List (String × Attribute)}
    (hruns : ∀ attr ∈ attributes, ∀ run ∈ attr.2.literalRuns, ¬overlappingOpenings <:+: run.toList) :
    markersIn (writtenAttributes attributes) = markersInAttributes attributes := by
  induction attributes with
  | nil => exact markersIn_nil
  | cons attr attributes ih =>
    have hrest := ih fun other hother => hruns other (List.mem_cons_of_mem _ hother)
    have hfirst : markersIn (attr.2.written attr.1) = _ := Attribute.markersIn_written (hruns attr List.mem_cons_self)
    rw [markersInAttributes, List.flatMap_cons, ← hfirst]
    exact ((bounded_writtenAttributes attributes).markersIn_append _).trans (congrArg _ hrest)

/-- Attributes with quiet names have no markers but those of their slots. -/
theorem markersInAttributes_of_quiet {attributes : List (String × Attribute)}
    (hnames : ∀ attr ∈ attributes, Quiet attr.1.toList) :
    markersInAttributes attributes = (attributes.flatMap (·.2.slots)).map ofSlot := by
  rw [List.map_flatMap]
  exact List.flatMap_congr fun attr hattr => by rw [Attribute.nameMarkers_eq_nil (hnames attr hattr), List.nil_append]

namespace Writer

/-- Adds attributes to a start tag. -/
def pushAttributes (w : Writer) (attributes : List (String × Attribute)) : Writer :=
  attributes.foldl (fun w attr => w.pushAttribute attr.1 attr.2) w

/-- Attributes are written behind what is there. -/
theorem written_pushAttributes (w : Writer) (attributes : List (String × Attribute)) :
    (w.pushAttributes attributes).written = w.written ++ writtenAttributes attributes := by
  induction attributes generalizing w with
  | nil => exact (List.append_nil _).symm
  | cons attr attributes ih =>
    show ((w.pushAttribute attr.1 attr.2).pushAttributes attributes).written = _
    rw [ih, written_pushAttribute, List.append_assoc]
    rfl

/-- With attributes the names of their slots are taken up. -/
theorem holds_pushAttributes {w : Writer} {slot : String} {attributes : List (String × Attribute)} :
    (w.pushAttributes attributes).Holds slot ↔ w.Holds slot ∨ slot ∈ attributes.flatMap (·.2.slots) := by
  induction attributes generalizing w with
  | nil => exact (or_iff_left List.not_mem_nil).symm
  | cons attr attributes ih =>
    show ((w.pushAttribute attr.1 attr.2).pushAttributes attributes).Holds slot ↔ _
    rw [ih, holds_pushAttribute, List.flatMap_cons, List.mem_append, or_assoc]

theorem written_adopt (w : Writer) (slots : NameSet) : (w.adopt slots).written = w.written := rfl

/-- With the markup of a child the names of its slots are taken up. -/
theorem holds_adopt {w : Writer} {slot : String} {slots : NameSet} :
    (w.adopt slots).Holds slot ↔ w.Holds slot ∨ slots.contains slot = true := NameMap.contains_union

end Writer

/-! ## Elements in the making -/

namespace Draft

/-- The element with more attributes and more content. -/
def extend (draft : Draft) (attributes : List (String × Attribute)) (content : List Segment) : Draft :=
  ⟨draft.start.pushAttributes attributes, draft.body.push content⟩

variable {draft next : Draft} {prop : String} {given : Given} {props : Givens}

theorem extend_extend (draft : Draft) (first second : List (String × Attribute)) (content others : List Segment) :
    (draft.extend first content).extend second others = draft.extend (first ++ second) (content ++ others) := by
  simp only [extend, Writer.push_push, Writer.pushAttributes, List.foldl_append]

/-- A value adds an attribute or content, depending on the property. -/
theorem eq_extend_of_addValue {value : Value} (h : draft.addValue prop value = .ok next) :
    next = draft.extend (value.attributeAs? prop).toList (value.contentAs prop) := by
  unfold addValue at h
  unfold Value.attributeAs? Value.contentAs
  cases hcontent : isContent prop with
  | true =>
    rw [hcontent, if_pos rfl, Writer.text] at h
    cases hobstacle : value.content.obstacle? with
    | some obstacle =>
      rw [hobstacle] at h
      cases h
    | none =>
      rw [hobstacle] at h
      cases h
      rfl
  | false =>
    rw [hcontent, if_neg Bool.false_ne_true, Writer.property] at h
    cases hattr : value.toAttribute prop with
    | error obstacle =>
      rw [hattr] at h
      cases h
    | ok attr =>
      rw [hattr] at h
      cases h
      rfl

/-- What is written inside an element that had nothing inside. -/
theorem written_extend_body (tag : String) (attributes : List (String × Attribute)) (content : List Segment) :
    ((begin tag).extend attributes content).body.written = writtenSegments content := by
  rw [extend, Writer.written, Writer.toList_parts_push]
  rfl

/-- A property that is added adds its attribute or its content, if it is written at all. -/
theorem eq_extend_of_addProp (h : draft.addProp scope prop given = .ok next) :
    next = draft.extend ((given.writtenValue? scope prop).bind (Value.attributeAs? prop)).toList
      ((given.writtenValue? scope prop).toList.flatMap (Value.contentAs prop)) := by
  unfold addProp at h
  unfold Given.writtenValue?
  split at h
  · rename_i hskipped
    cases h
    rw [if_pos hskipped]
    rfl
  · rename_i hskipped
    obtain ⟨value, heval, hvalue⟩ := bind_eq_ok_iff.1 h
    rw [if_neg hskipped, mapError_eq_ok_iff.1 heval, eq_extend_of_addValue hvalue]
    simp [Except.toOption]

/-- Properties that are added add their attributes and their content, each in the order of the properties. -/
theorem eq_extend_of_addProps (h : draft.addProps scope props = .ok next) :
    next = draft.extend (props.attributes scope) (props.content scope) := by
  induction props generalizing draft with
  | nil =>
    cases h
    rfl
  | cons entry props ih =>
    obtain ⟨prop, given⟩ := entry
    obtain ⟨middle, hfirst, hrest⟩ := bind_eq_ok_iff.1 h
    rw [ih hrest, eq_extend_of_addProp hfirst, extend_extend, Givens.attributes, Givens.attributes, List.filterMap_cons]
    cases (given.writtenValue? scope prop).bind (Value.attributeAs? prop) <;> rfl

variable {children : List Rendered} {slot : String}

/-- Children leave the start tag alone. -/
theorem start_addChildren (draft : Draft) (children : List Rendered) : (children.foldl addChild draft).start = draft.start := by
  induction children generalizing draft with
  | nil => rfl
  | cons child children ih => exact ih _

/-- Children are written behind the content, in their order. -/
theorem written_addChildren (draft : Draft) (children : List Rendered) :
    (children.foldl addChild draft).body.written = draft.body.written ++ children.flatMap (·.html.toList) := by
  induction children generalizing draft with
  | nil => exact (List.append_nil _).symm
  | cons child children ih =>
    rw [List.foldl_cons, ih, addChild, Writer.written_adopt, Writer.written_raw, List.append_assoc]
    rfl

/-- An element holds the slots of all its children. -/
theorem holds_addChildren : (children.foldl addChild draft).body.Holds slot ↔
    draft.body.Holds slot ∨ ∃ child ∈ children, child.slots.contains slot = true := by
  induction children generalizing draft with
  | nil => simp
  | cons child children ih =>
    have hraw : (draft.body.raw child.html).Holds slot ↔ draft.body.Holds slot := Iff.rfl
    rw [List.foldl_cons, ih, addChild, Writer.holds_adopt, hraw, List.exists_mem_cons_iff, or_assoc]

end Draft

/-! ## Elements -/

/-- What is written for an element after its attributes, if `inner` is written for its content and its children. -/
def ending (tag : String) (inner : List Char) : List Char :=
  if isVoidElement tag && inner.isEmpty then " />".toList else '>' :: inner ++ '<' :: '/' :: tag.toList ++ ['>']

/-- No marker that starts before the ending of an element reaches into it. -/
theorem bounded_ending (tag : String) (inner : List Char) : Bounded (ending tag inner) := by
  unfold ending
  split
  · exact .cons rfl _
  · exact .cons rfl _

/-- A tag holds nothing that a marker opens with. -/
theorem underscore_not_mem_tag {tag : String} (h : IsTagName tag) : '_' ∉ tag.toList := by
  obtain ⟨first, rest, htag, hfirst, hrest⟩ := h
  have hletter : ¬IsLetter '_' := by unfold IsLetter; decide
  have hdigit : ¬IsDecimalDigit '_' := by unfold IsDecimalDigit; decide
  rw [htag]
  intro hc
  rcases List.mem_cons.1 hc with heq | hc
  · exact hletter (heq ▸ hfirst)
  · rcases hrest _ hc with h | h | h
    · exact hletter h
    · exact hdigit h
    · exact absurd h (by decide)

/-- The end of an element adds no markers. -/
theorem markersIn_ending {tag : String} (htag : IsTagName tag) (inner : List Char) :
    markersIn (ending tag inner) = markersIn inner := by
  unfold ending
  split
  · rename_i hvoid
    obtain rfl : inner = [] := List.isEmpty_iff.1 (Bool.and_eq_true_iff.1 hvoid).2
    have hclose : '_' ∉ " />".toList := by decide
    exact markersIn_append_of_not_mem hclose []
  · have hclose : markersIn ('/' :: tag.toList ++ ['>']) = [] := by
      rw [List.cons_append, markersIn_cons_of_ne (by decide), markersIn_append_of_not_mem (underscore_not_mem_tag htag),
        markersIn_cons_of_ne (by decide), markersIn_nil]
    have hshape : '>' :: inner ++ '<' :: '/' :: tag.toList ++ ['>'] = '>' :: (inner ++ '<' :: ('/' :: tag.toList ++ ['>'])) := by
      simp
    rw [hshape, markersIn_cons_of_ne (by decide), markersIn_append_cons (by decide), hclose, List.append_nil]

namespace Draft

/-- The markup of an element is its start tag and its ending. -/
theorem toList_html_rendered (draft : Draft) (tag : String) :
    (draft.rendered tag).html.toList = draft.start.written ++ ending tag draft.body.written := by
  have hempty : draft.body.isEmpty = draft.body.written.isEmpty := by
    rw [Bool.eq_iff_iff, Writer.isEmpty_iff, List.isEmpty_iff]
  unfold rendered ending
  rw [hempty]
  split
  · exact (Writer.toList_html _).trans (Writer.written_raw _ _)
  · refine (Writer.toList_html _).trans ?_
    simp only [Writer.endTag, Writer.closeTag, Writer.written_raw, Writer.written_adopt, Writer.toList_html,
      String.toList_append]
    simp

/-- The slots of an element are those of its start tag and those of what is inside, unless nothing is. -/
theorem mem_slots_rendered {draft : Draft} {tag slot : String} (hempty : draft.body.written = [] → ¬draft.body.Holds slot) :
    slot ∈ (draft.rendered tag).slots.names ↔ draft.start.Holds slot ∨ draft.body.Holds slot := by
  rw [NameMap.mem_names_iff]
  unfold rendered
  split
  · rename_i hvoid
    exact (or_iff_left (hempty (Writer.isEmpty_iff.1 (Bool.and_eq_true_iff.1 hvoid).2))).symm
  · exact NameMap.contains_union

end Draft

/-! ## Rendered primitives -/

namespace Rendered

/-- The markup starts with a tag. -/
def StartsWithTag (rendered : Rendered) : Prop := ∃ rest, rendered.html.toList = '<' :: rest

/-- Markup that starts with a tag is not empty. -/
theorem StartsWithTag.ne_nil {rendered : Rendered} (h : rendered.StartsWithTag) : rendered.html.toList ≠ [] := by
  obtain ⟨rest, hhtml⟩ := h
  rw [hhtml]
  exact List.cons_ne_nil _ _

/-- The markers in the markup are those of the slots that are kept with it. -/
def IsExact (rendered : Rendered) : Prop :=
  ∀ marker, marker ∈ scan rendered.html ↔ ∃ slot ∈ rendered.slots.names, ofSlot slot = marker

end Rendered

namespace Primitive

variable {p : Primitive} {children : List Rendered} {rendered : Rendered}

/-- What is written inside the element of a primitive: its own content, then the markup of its children. -/
def inner (p : Primitive) (children : List Rendered) (scope : Scope) : List Char :=
  writtenSegments (p.props.content scope) ++ children.flatMap (·.html.toList)

/-- A primitive is rendered from its attributes, its content and its children. -/
theorem eq_rendered_of_render (h : p.render children scope = .ok rendered) :
    rendered = (children.foldl Draft.addChild
      ((Draft.begin p.tag).extend (p.props.attributes scope) (p.props.content scope))).rendered p.tag := by
  obtain ⟨draft, hprops, hrendered⟩ := bind_eq_ok_iff.1 h
  rw [← Draft.eq_extend_of_addProps hprops]
  exact (Except.ok.inj hrendered).symm

/-- The markup of a primitive is its start tag with its attributes, its content, the markup of its children and its end. -/
theorem toList_html_render (h : p.render children scope = .ok rendered) : rendered.html.toList =
    '<' :: p.tag.toList ++ writtenAttributes (p.props.attributes scope) ++ ending p.tag (p.inner children scope) := by
  have hstart : (Writer.empty.openTag p.tag).written = '<' :: p.tag.toList := by
    rw [Writer.openTag, Writer.written_raw, String.toList_append]
    rfl
  rw [eq_rendered_of_render h, Draft.toList_html_rendered, Draft.start_addChildren, Draft.written_addChildren,
    Draft.written_extend_body, Draft.extend, Writer.written_pushAttributes, Draft.begin, hstart]
  rfl

/-- All markup of primitives starts with a tag. -/
theorem startsWithTag_render (h : p.render children scope = .ok rendered) : rendered.StartsWithTag :=
  ⟨_, (toList_html_render h).trans (by rw [List.cons_append, List.cons_append])⟩

/-- The slots kept with the markup of a primitive are its own and those of its children, where a child without markup has
none. -/
theorem mem_slots_render (hchildren : ∀ child ∈ children, child.html.toList = [] → child.slots.names = [])
    (h : p.render children scope = .ok rendered) {slot : String} :
    slot ∈ rendered.slots.names ↔ slot ∈ p.slots scope ∨ ∃ child ∈ children, slot ∈ child.slots.names := by
  have hstart : ((Draft.begin p.tag).extend (p.props.attributes scope) (p.props.content scope)).start.Holds slot ↔
      slot ∈ (p.props.attributes scope).flatMap (·.2.slots) := by
    rw [Draft.extend, Writer.holds_pushAttributes]
    exact or_iff_right Writer.not_holds_empty
  have hbody : (children.foldl Draft.addChild
      ((Draft.begin p.tag).extend (p.props.attributes scope) (p.props.content scope))).body.Holds slot ↔
      slot ∈ slotsIn (p.props.content scope) ∨ ∃ child ∈ children, slot ∈ child.slots.names := by
    simp only [NameMap.mem_names_iff]
    rw [Draft.holds_addChildren, Draft.extend, Writer.holds_push]
    exact or_congr_left (or_iff_right Writer.not_holds_empty)
  rw [eq_rendered_of_render h, Draft.mem_slots_rendered, Draft.start_addChildren, hstart, hbody, slots, List.mem_append,
    or_assoc]
  intro hempty
  rw [Draft.written_addChildren, Draft.written_extend_body] at hempty
  obtain ⟨hcontent, hbelow⟩ := List.append_eq_nil_iff.1 hempty
  rw [hbody, slotsIn_eq_nil hcontent]
  rintro (hslot | ⟨child, hchild, hslot⟩)
  · cases hslot
  · rw [hchildren child hchild (List.flatMap_eq_nil_iff.1 hbelow child hchild)] at hslot
    cases hslot

/-- The markers that a primitive itself writes in a scope: those in its attributes, then those of its content. -/
def markers (p : Primitive) (scope : Scope) : List String :=
  markersInAttributes (p.props.attributes scope) ++ (slotsIn (p.props.content scope)).map ofSlot

/-- The markers in the names of the attributes that are written for a primitive. -/
def nameMarkers (p : Primitive) (scope : Scope) : List String :=
  (p.props.attributes scope).flatMap fun attr => attr.2.nameMarkers attr.1

/-- A primitive writes the markers of its slots and those in the names of its attributes. -/
theorem mem_markers_iff {marker : String} :
    marker ∈ p.markers scope ↔ marker ∈ p.nameMarkers scope ∨ ∃ slot ∈ p.slots scope, ofSlot slot = marker := by
  simp only [markers, markersInAttributes, nameMarkers, slots, List.mem_append, List.mem_flatMap, List.mem_map]
  constructor
  · rintro (⟨attr, hattr, hname | ⟨slot, hslot, rfl⟩⟩ | ⟨slot, hslot, rfl⟩)
    · exact Or.inl ⟨attr, hattr, hname⟩
    · exact Or.inr ⟨slot, Or.inl ⟨attr, hattr, hslot⟩, rfl⟩
    · exact Or.inr ⟨slot, Or.inr hslot, rfl⟩
  · rintro (⟨attr, hattr, hname⟩ | ⟨slot, ⟨attr, hattr, hslot⟩ | hslot, rfl⟩)
    · exact Or.inl ⟨attr, hattr, Or.inl hname⟩
    · exact Or.inl ⟨attr, hattr, Or.inr ⟨slot, hslot, rfl⟩⟩
    · exact Or.inr ⟨slot, hslot, rfl⟩

/-- If the names of its properties are quiet, a primitive writes the markers of its slots and no others. -/
theorem markers_eq_of_quiet (hnames : ∀ name given, (name, given) ∈ p.props → Quiet name.toList) :
    p.markers scope = (p.slots scope).map ofSlot := by
  have hattributes : ∀ attr ∈ p.props.attributes scope, Quiet attr.1.toList := by
    intro attr hattr
    obtain ⟨prop, given, -, hprop, -, hname, -⟩ := Givens.exists_of_mem_attributes hattr
    exact hname ▸ quiet_attributeName (hnames prop given hprop)
  rw [markers, markersInAttributes_of_quiet hattributes, slots, List.map_append]

section Scan

variable (hruns : ∀ run ∈ p.literalRuns scope, ¬overlappingOpenings <:+: run.toList)
  (hchildren : ∀ child ∈ children, child.StartsWithTag)

include hruns hchildren

/-- Inside an element a scan finds the markers of its content, then those in the markup of each child. -/
theorem markersIn_inner : markersIn (p.inner children scope) =
    (slotsIn (p.props.content scope)).map ofSlot ++ children.flatMap fun child => scan child.html := by
  have hbelow : Bounded (children.flatMap (·.html.toList)) ∧
      markersIn (children.flatMap (·.html.toList)) = children.flatMap fun child => scan child.html := by
    clear hruns
    induction children with
    | nil => exact ⟨.nil, markersIn_nil⟩
    | cons child children ih =>
      obtain ⟨hbounded, hscan⟩ := ih fun other hother => hchildren other (List.mem_cons_of_mem _ hother)
      obtain ⟨rest, hchild⟩ := hchildren child List.mem_cons_self
      have hstart : Bounded child.html.toList := hchild ▸ .cons rfl rest
      refine ⟨hstart.append hbounded, ?_⟩
      rw [List.flatMap_cons, hbounded.markersIn_append, hscan]
      rfl
  rw [inner, hbelow.1.markersIn_append, hbelow.2,
    markersIn_writtenSegments fun run hrun => hruns run (List.mem_append_right _ hrun)]

/-- A scan of the markup of a primitive finds the markers in its attributes, then those of its content, then those in the
markup of each child. -/
theorem scan_render_markers (htag : IsTagName p.tag) (h : p.render children scope = .ok rendered) :
    scan rendered.html = p.markers scope ++ children.flatMap fun child => scan child.html := by
  have hattributes : markersIn (writtenAttributes (p.props.attributes scope)) = markersInAttributes (p.props.attributes scope) :=
    markersIn_writtenAttributes fun attr hattr run hrun =>
      hruns run (List.mem_append_left _ (List.mem_flatMap.2 ⟨attr, hattr, hrun⟩))
  rw [scan_eq, toList_html_render h, (bounded_ending _ _).markersIn_append, List.cons_append, markersIn_cons_of_ne (by decide),
    markersIn_append_of_not_mem (underscore_not_mem_tag htag), hattributes, markersIn_ending htag, markersIn_inner hruns hchildren,
    markers, List.append_assoc]

/-- A scan of the markup of a primitive whose properties have quiet names finds the markers of its slots, then those in the
markup of each child. -/
theorem scan_render (htag : IsTagName p.tag) (hnames : ∀ name given, (name, given) ∈ p.props → Quiet name.toList)
    (h : p.render children scope = .ok rendered) :
    scan rendered.html = (p.slots scope).map ofSlot ++ children.flatMap fun child => scan child.html := by
  rw [scan_render_markers hruns hchildren htag h, markers_eq_of_quiet hnames]

end Scan

end Primitive

end Prebake
