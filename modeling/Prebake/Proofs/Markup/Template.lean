import Prebake.Proofs.Markup.Written
import Prebake.Proofs.Value.Filling
import Prebake.Proofs.Value.Renaming

/-!
# Templates of markup

A template is markup in which the places of slots are left open. What is written for segments with renamed slots is one
template, whatever the slots are renamed to, with the marker of a slot in each of its places (`writtenSegments_renameSlot`):
neither merging nor neutralizing looks at the name of a slot. How a value is written is told in the same way of all names of
its slots (`Value.content_renameSlots`, `Value.agrees_toAttribute`).
-/

namespace Prebake

open Marker

variable {f : String → String}

/-- Markup in which the places of slots are left open. -/
abbrev Template : Type := List Segment

namespace Template

/-- The markup of a template, where the marker of `f slot` stands in the places of `slot`. -/
def markup (f : String → String) (template : Template) : String := Segment.filled (fun slot => ofSlot (f slot)) template

/-- The characters of the markup of a template. -/
def written (f : String → String) (template : Template) : List Char := (markup f template).toList

/-- Whether a template has no markup, whatever its slots are. -/
def isBlank (template : Template) : Bool :=
  template.all fun segment => match segment with
    | .text content => content = ""
    | .slot _ => false

@[simp] theorem written_nil : written f [] = [] := rfl

@[simp] theorem written_text (content : String) (rest : Template) :
    written f (.text content :: rest) = content.toList ++ written f rest := String.toList_append ..

/-- In the place of a slot stands the marker of whatever it is renamed to. -/
@[simp] theorem written_slot (slot : String) (rest : Template) :
    written f (.slot slot :: rest) = (ofSlot (f slot)).toList ++ written f rest := String.toList_append ..

@[simp] theorem written_append (first second : Template) :
    written f (first ++ second) = written f first ++ written f second := by
  rw [written, markup, Segment.filled_append, String.toList_append]
  rfl

theorem written_flatten (templates : List Template) :
    written f (List.flatten templates) = templates.flatMap (written f) := by
  induction templates with
  | nil => rfl
  | cons template templates ih => rw [List.flatten_cons, List.flatMap_cons, written_append, ih]

theorem written_flatMap {α : Type} (items : List α) (templates : α → Template) :
    written f (items.flatMap templates) = items.flatMap fun item => written f (templates item) := by
  rw [List.flatMap, written_flatten, List.flatMap_map]

/-- A template has no markup for all names of its slots if it has none for some. -/
theorem isBlank_iff {template : Template} : template.isBlank = true ↔ written f template = [] := by
  induction template with
  | nil => simp [isBlank]
  | cons segment rest ih =>
    rw [isBlank, List.all_cons, ← isBlank, Bool.and_eq_true, ih]
    cases segment with
    | text content => simp
    | slot slot => simp [(isMarker_ofSlot (f slot)).ne_nil]

/-- A blank template has no places for slots. -/
theorem slotsIn_eq_nil_of_isBlank {template : Template} (h : template.isBlank = true) : slotsIn template = [] := by
  refine List.filterMap_eq_nil_iff.2 fun segment hsegment => ?_
  have hblank := List.all_eq_true.1 h segment hsegment
  cases segment with
  | text content => rfl
  | slot slot => cases hblank

end Template

theorem slotsIn_append (first second : List Segment) : slotsIn (first ++ second) = slotsIn first ++ slotsIn second :=
  List.filterMap_append

theorem slotsIn_renameSlot (segments : List Segment) :
    slotsIn (segments.map (Segment.renameSlot f)) = (slotsIn segments).map f := by
  rw [slotsIn, List.filterMap_map, slotsIn, List.map_filterMap]
  refine List.filterMap_congr fun segment _ => ?_
  cases segment <;> rfl

/-! ## Parts -/

namespace Part

/-- The part with another name for its slot. -/
def renameSlot (f : String → String) : Part → Part
  | literal text => literal text
  | slot name => slot (f name)
  | markup html => markup html

/-- The template of merged parts; `afterMarker` tells whether a marker stands right before them. -/
def template (afterMarker : Bool) : List Part → Template
  | [] => []
  | literal text :: rest =>
    let escaped := Markup.escape text
    .text (if afterMarker then neutralizeAfterMarker escaped else neutralize escaped) :: template false rest
  | slot name :: rest => .slot name :: template true rest
  | markup html :: rest => .text html :: template false rest

/-- Parts are written as their template, whatever the slots are renamed to. -/
theorem write_renameSlot (afterMarker : Bool) (parts : List Part) :
    write afterMarker (parts.map (renameSlot f)) = Template.written f (template afterMarker parts) := by
  induction parts generalizing afterMarker with
  | nil => rfl
  | cons part parts ih =>
    rw [List.map_cons]
    cases part with
    | literal text => rw [renameSlot, write, template, Template.written_text, ih]
    | slot name => rw [renameSlot, write, template, Template.written_slot, ih]
    | markup html => rw [renameSlot, write, template, Template.written_text, ih]

/-- The template of parts has a place for each of their slots. -/
theorem slotsIn_template (afterMarker : Bool) (parts : List Part) :
    slotsIn (template afterMarker parts) = parts.filterMap slot? := by
  induction parts generalizing afterMarker with
  | nil => rfl
  | cons part parts ih =>
    cases part with
    | literal text => exact ih false
    | slot name => exact congrArg (name :: ·) (ih true)
    | markup html => exact ih false

/-- Literal parts are merged with literal parts only. -/
theorem consMerged_renameSlot (part : Part) (parts : List Part) :
    consMerged (part.renameSlot f) (parts.map (renameSlot f)) = (consMerged part parts).map (renameSlot f) := by
  cases part with
  | slot name => cases parts <;> rfl
  | markup html => cases parts <;> rfl
  | literal s =>
    cases parts with
    | nil =>
      simp only [renameSlot, List.map_nil, consMerged]
      split <;> rfl
    | cons first rest =>
      cases first with
      | literal t => rfl
      | slot name =>
        simp only [renameSlot, List.map_cons, consMerged]
        split <;> rfl
      | markup html =>
        simp only [renameSlot, List.map_cons, consMerged]
        split <;> rfl

/-- Renaming and merging can change places. -/
theorem merge_renameSlot (parts : List Part) : merge (parts.map (renameSlot f)) = (merge parts).map (renameSlot f) := by
  induction parts with
  | nil => rfl
  | cons part parts ih =>
    show consMerged (part.renameSlot f) (merge (parts.map (renameSlot f))) =
      (consMerged part (merge parts)).map (renameSlot f)
    rw [ih, consMerged_renameSlot]

theorem ofSegment_renameSlot (segment : Segment) : ofSegment (segment.renameSlot f) = (ofSegment segment).renameSlot f := by
  cases segment <;> rfl

end Part

/-! ## Segments -/

/-- The template of segments between two pieces of markup. -/
def segmentsTemplate (segments : List Segment) : Template :=
  Part.template false (Part.merge (segments.map Part.ofSegment))

/-- What is written for segments with renamed slots is their template with other markers. -/
theorem writtenSegments_renameSlot (segments : List Segment) :
    writtenSegments (segments.map (Segment.renameSlot f)) = Template.written f (segmentsTemplate segments) := by
  have hparts : (segments.map (Segment.renameSlot f)).map Part.ofSegment =
      (segments.map Part.ofSegment).map (Part.renameSlot f) := by
    rw [List.map_map, List.map_map]
    exact List.map_congr_left fun segment _ => Part.ofSegment_renameSlot segment
  rw [writtenSegments, hparts, Part.merge_renameSlot, Part.write_renameSlot]
  rfl

/-- The template of segments has a place for each of their slots. -/
theorem slotsIn_segmentsTemplate (segments : List Segment) : slotsIn (segmentsTemplate segments) = slotsIn segments := by
  rw [segmentsTemplate, Part.slotsIn_template, Part.slots_merge, slots_map_ofSegment]

/-! ## Attributes -/

namespace Attribute

/-- The attribute with other names for slots. -/
def renameSlots (f : String → String) : Attribute → Attribute
  | omitted => omitted
  | nameOnly => nameOnly
  | quoted segments => quoted (segments.map (Segment.renameSlot f))

/-- The template of an attribute. -/
def template (name : String) : Attribute → Template
  | omitted => []
  | nameOnly => [.text (" " ++ name)]
  | quoted segments => .text (" " ++ name ++ "=\"") :: segmentsTemplate segments ++ [.text "\""]

/-- An attribute is written as its template, whatever its slots are renamed to. -/
theorem written_renameSlots (name : String) (attr : Attribute) :
    (attr.renameSlots f).written name = Template.written f (attr.template name) := by
  cases attr with
  | omitted => rfl
  | nameOnly => simp [renameSlots, written, template]
  | quoted segments => simp [renameSlots, written, template, writtenSegments_renameSlot]

/-- The template of an attribute has a place for each of its slots. -/
theorem slotsIn_template (name : String) (attr : Attribute) : slotsIn (attr.template name) = attr.slots := by
  cases attr with
  | omitted => rfl
  | nameOnly => rfl
  | quoted segments =>
    show slotsIn (segmentsTemplate segments ++ [.text "\""]) = slotsIn segments
    rw [slotsIn_append, slotsIn_segmentsTemplate]
    exact List.append_nil _

theorem slots_renameSlots (attr : Attribute) : (attr.renameSlots f).slots = attr.slots.map f := by
  cases attr with
  | omitted => rfl
  | nameOnly => rfl
  | quoted segments => exact slotsIn_renameSlot segments

end Attribute

/-! ## How values are written -/

namespace Style

/-- The declaration of a value with renamed slots is the renamed declaration. -/
theorem agrees_entryValue (property : String) (v : Value) :
    Agrees (Option.map (List.map (Segment.renameSlot f)) · = ·) (entryValue property v)
      (entryValue property (v.renameSlots f)) := by
  cases v with
  | string s =>
    refine .ok ?_
    split <;> rfl
  | array items | object fields => exact .error _
  | _ => exact .ok rfl

/-- The declarations of an object with renamed slots are the renamed declarations. -/
theorem agrees_declarations (fields : List (String × Value)) :
    Agrees (List.map (List.map (Segment.renameSlot f)) · = ·) (declarations fields)
      (declarations (Value.renameFields f fields)) := by
  induction fields with
  | nil => exact .ok rfl
  | cons field fields ih =>
    obtain ⟨property, value⟩ := field
    have hfirst : Agrees (Option.map (List.map (Segment.renameSlot f)) · = ·) (declaration property value)
        (declaration property (value.renameSlots f)) := by
      refine (agrees_entryValue property value).bind_eq fun found => .ok ?_
      cases found <;> rfl
    refine hfirst.bind_eq fun found => ?_
    cases found with
    | none => exact ih
    | some segments => exact ih.bind_eq fun _ => .ok rfl

/-- To rename slots and to put something in between can change places. -/
theorem intercalate_renameSlot (separator : List Segment) (items : List (List Segment)) :
    (separator.map (Segment.renameSlot f)).intercalate (items.map (List.map (Segment.renameSlot f))) =
      (separator.intercalate items).map (Segment.renameSlot f) := by
  induction items with
  | nil => rfl
  | cons first rest ih =>
    cases rest with
    | nil => simp
    | cons second rest =>
      rw [List.map_cons, List.map_cons, List.intercalate_cons_cons, List.intercalate_cons_cons, List.map_append,
        List.map_append, ← ih, List.map_cons]

/-- A style with renamed slots is the renamed style. -/
theorem agrees_segments (fields : List (String × Value)) :
    Agrees (List.map (Segment.renameSlot f) · = ·) (segments fields) (segments (Value.renameFields f fields)) :=
  (agrees_declarations fields).bind_eq fun found => .ok (intercalate_renameSlot [.text ";"] found).symm

end Style

namespace Value

mutual

/-- A value with renamed slots is the same content with renamed slots, up to the same obstacle. -/
theorem content_renameSlots : ∀ v : Value, (v.renameSlots f).content =
    ⟨v.content.segments.map (Segment.renameSlot f), v.content.obstacle?⟩
  | undefined | null | bool _ | number _ | string _ | server _ | object _ => rfl
  | array items => by
    rw [renameSlots, content, content]
    exact itemContents_renameItems items

/-- As content, renamed items are renamed up to the same obstacle. -/
theorem itemContents_renameItems : ∀ items : List Value, itemContents (renameItems f items) =
    ⟨(itemContents items).segments.map (Segment.renameSlot f), (itemContents items).obstacle?⟩
  | [] => rfl
  | item :: items => by
    rw [renameItems, itemContents, itemContents, content_renameSlots item, itemContents_renameItems items]
    dsimp only
    cases item.content.obstacle? with
    | some obstacle => rfl
    | none => simp

end

/-- A value with renamed slots is written as the same attribute with renamed slots, or refused for the same reason. -/
theorem agrees_toAttribute (property : String) (v : Value) :
    Agrees (Attribute.renameSlots f · = ·) (v.toAttribute property) ((v.renameSlots f).toAttribute property) := by
  cases v with
  | undefined | null | number _ | string _ | server _ => exact .ok rfl
  | array items => exact .ok (by rw [Attribute.renameSlots, ← toSegments_renameSlots, renameSlots])
  | bool b =>
    cases b with
    | false => exact .ok rfl
    | true =>
      refine .ok ?_
      split <;> rfl
  | object fields =>
    simp only [renameSlots, toAttribute]
    split
    · refine (Style.agrees_segments fields).bind_eq fun segments => .ok ?_
      rw [List.isEmpty_map]
      split <;> rfl
    · exact .error _

end Value

end Prebake
