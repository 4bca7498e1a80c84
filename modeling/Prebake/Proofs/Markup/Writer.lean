import Prebake.Markup.Writer
import Prebake.Proofs.NameMap

/-!
# What a writer has written

Markup that stands as it is separates what is written before it from what is written after it: neither merging nor
neutralizing looks across it (`Part.write_merge_markup`). So the text of a writer is known from what was added to it.
-/

namespace Prebake

/-! ## Parts -/

namespace Part

/-- Merging does not look past a part that is no literal text. -/
theorem consMerged_append {separator : Part} (h : ∀ text, separator ≠ literal text) (part : Part) (before after : List Part) :
    consMerged part (before ++ separator :: after) = consMerged part before ++ separator :: after := by
  cases part with
  | literal s =>
    cases before with
    | nil =>
      cases separator with
      | literal text => exact absurd rfl (h text)
      | slot name | markup html =>
        rw [List.nil_append]
        simp only [consMerged]
        split <;> rfl
    | cons first before =>
      cases first with
      | literal t => rfl
      | slot name | markup other =>
        simp only [consMerged, List.cons_append]
        split <;> rfl
  | slot name | markup other => cases before <;> rfl

/-- Nothing is merged across a part that is not literal. -/
theorem merge_append {separator : Part} (h : ∀ text, separator ≠ literal text) (before after : List Part) :
    merge (before ++ separator :: after) = merge before ++ separator :: merge after := by
  induction before with
  | nil => cases separator with
    | literal text => exact absurd rfl (h text)
    | slot name | markup html => rfl
  | cons part before ih =>
    show consMerged part (merge (before ++ separator :: after)) =
      consMerged part (merge before) ++ separator :: merge after
    rw [ih, consMerged_append h]

/-- What comes behind finished markup is written as it would be at the beginning. -/
theorem write_append_markup (afterMarker : Bool) (before : List Part) (html : String) (after : List Part) :
    write afterMarker (before ++ markup html :: after) = write afterMarker before ++ (html.toList ++ write false after) := by
  induction before generalizing afterMarker with
  | nil => rfl
  | cons part before ih => cases part <;> simp only [List.cons_append, write, ih, List.append_assoc]

/-- Markup that stands as it is separates what is before it from what is after it. -/
theorem write_merge_markup (before : List Part) (html : String) (after : List Part) :
    write false (merge (before ++ markup html :: after)) =
      write false (merge before) ++ (html.toList ++ write false (merge after)) := by
  have hmarkup : ∀ text, markup html ≠ literal text := nofun
  rw [merge_append hmarkup, write_append_markup]

end Part

/-! ## Segments -/

/-- What is written for segments between two pieces of markup. -/
def writtenSegments (segments : List Segment) : List Char :=
  Part.write false (Part.merge (segments.map Part.ofSegment))

/-- The slot that a segment is. -/
def Segment.slot? : Segment → Option String
  | .slot name => some name
  | .text _ => none

/-- The slots in segments, in order and with repetitions. -/
def slotsIn (segments : List Segment) : List String := segments.filterMap Segment.slot?

/-- The segments of values that are written as content. -/
def contentSegments (values : List Value) : List Segment := values.flatMap (·.content.segments)

/-! ## Attributes -/

namespace Attribute

/-- What is written for an attribute. -/
def written (name : String) : Attribute → List Char
  | omitted => []
  | nameOnly => ' ' :: name.toList
  | quoted segments => ' ' :: (name.toList ++ "=\"".toList) ++ (writtenSegments segments ++ ['"'])

/-- The slots in an attribute. -/
def slots : Attribute → List String
  | quoted segments => slotsIn segments
  | _ => []

end Attribute

/-! ## Writers -/

namespace Writer

/-- The characters that have been written. -/
def written (w : Writer) : List Char := Part.write false (Part.merge w.parts.toList)

theorem toList_html (w : Writer) : w.html.toList = w.written := String.toList_ofList

/-- A writer is empty if nothing has been written. -/
theorem isEmpty_iff {w : Writer} : w.isEmpty = true ↔ w.written = [] := by
  rw [isEmpty, beq_iff_eq, ← String.toList_inj, toList_html]
  rfl

/-- Segments become parts at the end. -/
theorem toList_parts_push (w : Writer) (segments : List Segment) :
    (w.push segments).parts.toList = w.parts.toList ++ segments.map Part.ofSegment := by
  show (segments.foldl (fun parts segment => parts.push (Part.ofSegment segment)) w.parts).toList = _
  generalize w.parts = parts
  induction segments generalizing parts with
  | nil => simp
  | cons segment segments ih =>
    rw [List.foldl_cons, ih]
    simp

theorem push_push (w : Writer) (first second : List Segment) : (w.push first).push second = w.push (first ++ second) := by
  simp [push, List.foldl_append]

/-- Finished markup is written behind all that is there. -/
theorem written_raw (w : Writer) (html : String) : (w.raw html).written = w.written ++ html.toList := by
  have hparts : (w.raw html).parts.toList = w.parts.toList ++ Part.markup html :: [] := Array.toList_push
  rw [written, hparts, Part.write_merge_markup]
  exact congrArg (w.written ++ ·) (List.append_nil _)

/-- Segments after markup are written by themselves, and what is written before them does not matter. -/
theorem written_raw_push (w : Writer) (html : String) (segments : List Segment) :
    ((w.raw html).push segments).written = w.written ++ html.toList ++ writtenSegments segments := by
  have hparts : ((w.raw html).push segments).parts.toList =
      w.parts.toList ++ Part.markup html :: segments.map Part.ofSegment := by
    rw [toList_parts_push]
    simp [raw]
  rw [written, hparts, Part.write_merge_markup, ← List.append_assoc]
  rfl

/-- An attribute is written behind all that is there. -/
theorem written_pushAttribute (w : Writer) (name : String) (attr : Attribute) :
    (w.pushAttribute name attr).written = w.written ++ attr.written name := by
  cases attr with
  | omitted => exact (List.append_nil _).symm
  | nameOnly =>
    rw [pushAttribute, written_raw, String.toList_append]
    rfl
  | quoted segments =>
    rw [pushAttribute, written_raw, written_raw_push, Attribute.written, String.toList_append, String.toList_append,
      List.append_assoc, List.append_assoc]
    rfl

/-! ## Content -/

/-- The writer with values added as content, one after the other. -/
def texts (w : Writer) (values : List Value) : Writer := values.foldl (fun w value => (w.text value).1) w

/-- Values are written as content by pushing their segments. -/
theorem texts_eq (w : Writer) (values : List Value) : w.texts values = w.push (contentSegments values) := by
  induction values generalizing w with
  | nil => rfl
  | cons value values ih =>
    show (w.push value.content.segments).texts values = _
    rw [ih, push_push]
    rfl

/-- What is written for values as content, where nothing has been written before. -/
theorem written_texts (values : List Value) : (empty.texts values).written = writtenSegments (contentSegments values) := by
  rw [texts_eq, written, toList_parts_push]
  rfl

/-! ## Slots of writers -/

/-- Whether a writer holds a slot. -/
def Holds (w : Writer) (slot : String) : Prop := w.slots.contains slot = true

variable {w : Writer} {slot : String}

theorem not_holds_empty : ¬Holds empty slot := nofun

/-- A writer takes up the slots of the segments that are pushed. -/
theorem holds_push {segments : List Segment} :
    (w.push segments).Holds slot ↔ w.Holds slot ∨ slot ∈ slotsIn segments := by
  induction segments generalizing w with
  | nil => exact (or_iff_left List.not_mem_nil).symm
  | cons segment segments ih =>
    rw [← List.singleton_append, ← push_push, ih]
    cases segment with
    | text content => rfl
    | slot name =>
      have hfirst : (w.push [.slot name]).Holds slot ↔ slot = name ∨ w.Holds slot := NameMap.contains_insert
      have hslots : slotsIn ([.slot name] ++ segments) = name :: slotsIn segments := rfl
      rw [hfirst, hslots, List.mem_cons, or_comm (a := slot = name), or_assoc]

/-- A writer takes up the slots of an attribute. -/
theorem holds_pushAttribute {name : String} {attr : Attribute} :
    (w.pushAttribute name attr).Holds slot ↔ w.Holds slot ∨ slot ∈ attr.slots := by
  cases attr with
  | omitted => simp [pushAttribute, Attribute.slots]
  | nameOnly => simp [pushAttribute, Attribute.slots, raw, Holds]
  | quoted segments =>
    show ((w.raw _).push segments).Holds slot ↔ _
    rw [holds_push]
    rfl

end Writer

end Prebake
