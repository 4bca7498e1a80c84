import Prebake.Proofs.Except
import Prebake.Proofs.NameMap
import Prebake.Proofs.Value.Segments
import Prebake.Value.Operations

/-!
# Filling the slots of values

When a page is served, each slot of a value becomes a text. `Value.fill` does this to a whole value, also inside of
arrays and objects. Every operation that succeeds on values with slots succeeds on the filled values, and its result is
the filled result: an operation either passes slots on, as texts do, or it does not depend on them.
-/

namespace Prebake

variable {contents : String → String}

/-- The text of segments with the contents of each slot in its place. -/
def Segment.filled (contents : String → String) : List Segment → String
  | [] => ""
  | .text t :: rest => t ++ filled contents rest
  | .slot name :: rest => contents name ++ filled contents rest

namespace Value

mutual

/-- The value with the contents of each slot in its place, also in items and in fields. -/
def fill (contents : String → String) : Value → Value
  | undefined => undefined
  | null => null
  | bool b => bool b
  | number x => number x
  | string s => string s
  | server segments => string (Segment.filled contents segments)
  | array items => array (fillItems contents items)
  | object fields => object (fillFields contents fields)

/-- The items with the contents of each slot in its place. -/
def fillItems (contents : String → String) : List Value → List Value
  | [] => []
  | item :: items => fill contents item :: fillItems contents items

/-- The fields with the contents of each slot in its place; their names stay. -/
def fillFields (contents : String → String) : List (String × Value) → List (String × Value)
  | [] => []
  | (name, item) :: fields => (name, fill contents item) :: fillFields contents fields

end

theorem fillItems_eq_map (items : List Value) : fillItems contents items = items.map (fill contents) := by
  induction items with
  | nil => rfl
  | cons item items ih => rw [fillItems, ih, List.map_cons]

theorem fillFields_eq_map (fields : List (String × Value)) :
    fillFields contents fields = fields.map fun field => (field.1, fill contents field.2) := by
  induction fields with
  | nil => rfl
  | cons field fields ih => rw [fillFields, ih, List.map_cons]

/-! ## What filling leaves as it is -/

/-- A value with slots is never `undefined` or `null`, and it becomes a text when it is filled. -/
@[simp] theorem isNullish_fill (v : Value) : (v.fill contents).isNullish = v.isNullish := by
  cases v <;> rfl

@[simp] theorem isCompound_fill (v : Value) : (v.fill contents).isCompound = v.isCompound := by
  cases v <;> rfl

/-- Whether addition joins texts is the same before filling and after it, as slots become texts. -/
@[simp] theorem joins_fill (v : Value) : (v.fill contents).joins = v.joins := by
  cases v <;> rfl

/-- The kind of a value is the same before filling and after it: server values count as texts. -/
@[simp] theorem typeName_fill (v : Value) : (v.fill contents).typeName = v.typeName := by
  cases v <;> rfl

/-- No filled value is a server value. -/
@[simp] theorem isServer_fill (v : Value) : (v.fill contents).isServer = false := by
  cases v <;> rfl

mutual

/-- What is given as data holds no slots. -/
@[simp] theorem fill_ofJson : ∀ json : Json, (ofJson json).fill contents = ofJson json
  | .null | .bool _ | .whole _ | .decimal _ | .string _ => rfl
  | .array items => by rw [ofJson, fill, fillItems_ofJsonItems items]
  | .object fields => by rw [ofJson, fill, fillFields_ofJsonFields fields]

theorem fillItems_ofJsonItems : ∀ items : List Json, fillItems contents (ofJsonItems items) = ofJsonItems items
  | [] => rfl
  | item :: items => by rw [ofJsonItems, fillItems, fill_ofJson item, fillItems_ofJsonItems items]

theorem fillFields_ofJsonFields : ∀ fields : List (String × Json),
    fillFields contents (ofJsonFields fields) = ofJsonFields fields
  | [] => rfl
  | (_, item) :: fields => by rw [ofJsonFields, fillFields, fill_ofJson item, fillFields_ofJsonFields fields]

end

end Value

/-! ## Text with slots -/

namespace Segment

@[simp] theorem filled_append (first second : List Segment) :
    filled contents (first ++ second) = filled contents first ++ filled contents second := by
  induction first with
  | nil => simp [filled]
  | cons segment first ih => cases segment <;> simp [filled, ih, String.append_assoc]

/-- Merging does not change what filled segments spell. -/
@[simp] theorem filled_consMerged (segment : Segment) (merged : List Segment) :
    filled contents (consMerged segment merged) = filled contents (segment :: merged) := by
  fun_cases consMerged segment merged <;> simp_all [filled, String.append_assoc]

/-- Merging segments does not change their text. -/
@[simp] theorem filled_merge (segments : List Segment) :
    filled contents (merge segments) = filled contents segments := by
  induction segments with
  | nil => rfl
  | cons segment segments ih =>
    rw [merge_cons, filled_consMerged]
    cases segment <;> rw [filled, filled, ih]

/-- Text without slots is the same whatever slots hold. -/
theorem filled_eq_literal {segments : List Segment} (h : segments.any isSlot = false) :
    filled contents segments = literal segments := by
  induction segments with
  | nil => rfl
  | cons segment segments ih =>
    cases segment with
    | text t => rw [filled, literal, ih (by simpa [isSlot] using h)]
    | slot name => simp [isSlot] at h

/-- Segments without slots that have the text of others once their slots are filled. -/
structure FilledAs (contents : String → String) (segments closed : List Segment) : Prop where
  noSlot : closed.any isSlot = false
  text : filled contents closed = filled contents segments

namespace FilledAs

variable {segments closed others othersClosed : List Segment}

theorem nil : FilledAs contents [] [] := ⟨rfl, rfl⟩

theorem singleton (t : String) : FilledAs contents [.text t] [.text t] := ⟨rfl, rfl⟩

theorem append (h : FilledAs contents segments closed) (hothers : FilledAs contents others othersClosed) :
    FilledAs contents (segments ++ others) (closed ++ othersClosed) where
  noSlot := by rw [List.any_append, h.noSlot, hothers.noSlot, Bool.or_false]
  text := by rw [filled_append, filled_append, h.text, hothers.text]

theorem cons (t : String) (h : FilledAs contents segments closed) :
    FilledAs contents (.text t :: segments) (.text t :: closed) :=
  (singleton t).append h

end FilledAs

end Segment

namespace Value

open Segment (FilledAs)

/-- The value of segments is filled by the text that they spell then. -/
theorem fill_ofSegments (segments : List Segment) :
    (ofSegments segments).fill contents = string (Segment.filled contents segments) := by
  simp only [ofSegments]
  split
  · rw [fill, Segment.filled_merge]
  · rename_i hslots
    rw [fill, ← Segment.filled_eq_literal (by simpa using hslots), Segment.filled_merge]

/-- A text becomes the text of the segments that its own ones become. -/
theorem fill_ofSegments_eq {segments closed : List Segment} (h : FilledAs contents segments closed) :
    (ofSegments segments).fill contents = ofSegments closed := by
  have hnoSlot : (Segment.merge closed).any Segment.isSlot = false := by
    rw [Segment.any_isSlot_merge, h.noSlot]
  rw [fill_ofSegments, ofSegments, if_neg (by rw [hnoSlot]; exact Bool.false_ne_true),
    ← Segment.filled_eq_literal hnoSlot, Segment.filled_merge, h.text]

mutual

/-- The text of a filled value. -/
theorem filledAs_toSegments : ∀ v : Value, FilledAs contents v.toSegments (v.fill contents).toSegments
  | undefined | null | bool _ | number _ | string _ | object _ => .singleton _
  | server segments => ⟨rfl, by simp [fill, toSegments, scalarText, Segment.filled]⟩
  | array items => by
    rw [fill, toSegments, toSegments]
    exact filledAs_itemSegments items

/-- The joined text of items is filled as that of filled items. -/
theorem filledAs_itemSegments : ∀ items : List Value,
    FilledAs contents (itemSegments items) (itemSegments (fillItems contents items))
  | [] => .nil
  | item :: items => by
    have hempty : (fillItems contents items).isEmpty = items.isEmpty := by
      rw [fillItems_eq_map, List.isEmpty_map]
    rw [fillItems, itemSegments, itemSegments, isNullish_fill, hempty]
    refine .append ?_ ?_
    · split
      · exact .nil
      · exact filledAs_toSegments item
    · split
      · exact .nil
      · exact (filledAs_itemSegments items).cons ","

end

/-! ## Coercions -/

/-- A condition that is known over slots is the same over their contents. -/
theorem refines_truth (v : Value) : Refines Eq v.truth (v.fill contents).truth := by
  cases v with
  | server segments => exact .error _
  | _ => exact .refl _

mutual

/-- Filling does not change the text of a value that has one, since no slot takes part in it. -/
theorem refines_toText : ∀ v : Value, Refines Eq v.toText (v.fill contents).toText
  | undefined | null | bool _ | number _ | string _ | object _ => .refl _
  | server _ => .error _
  | array items => by
    rw [fill, toText, toText]
    exact (refines_itemTexts items).bind_eq fun _ => .refl _

/-- Texts of items that are known over slots are the same over their contents. -/
theorem refines_itemTexts : ∀ items : List Value, Refines Eq (itemTexts items) (itemTexts (fillItems contents items))
  | [] => .refl _
  | item :: items => by
    have hrest : ∀ text : String, Refines Eq (do return text :: (← itemTexts items))
        (do return text :: (← itemTexts (fillItems contents items))) :=
      fun _ => (refines_itemTexts items).bind_eq fun _ => .refl _
    rw [fillItems, itemTexts, itemTexts, isNullish_fill]
    cases item.isNullish with
    | true => exact hrest ""
    | false => exact (refines_toText item).bind_eq hrest

end

/-- A number that is known over slots is the same over their contents. -/
theorem refines_toNumber (v : Value) : Refines Eq v.toNumber (v.fill contents).toNumber := by
  cases v with
  | server segments => exact .error _
  | array items => exact (refines_toText (array items)).bind_eq fun _ => .refl _
  | _ => exact .refl _

/-! ## Operations -/

/-- A sum over slots becomes the sum over their contents. -/
theorem refines_add (a b : Value) :
    Refines (fill contents · = ·) (a.add b) ((a.fill contents).add (b.fill contents)) := by
  simp only [add, joins_fill]
  split
  · exact .ok (fill_ofSegments_eq ((filledAs_toSegments a).append (filledAs_toSegments b)))
  · exact (refines_toNumber a).bind_eq fun _ => (refines_toNumber b).bind_eq fun _ => .ok rfl

/-- A comparison refuses server values, so it can be taken not to meet any. -/
theorem refines_comparison {α : Type} {a b : Value} {x y : Except Obstacle α} {e : Obstacle}
    (h : a.isServer = false → b.isServer = false → Refines Eq x y) :
    Refines Eq (if a.isServer || b.isServer then .error e else x)
      (if (a.fill contents).isServer || (b.fill contents).isServer then .error e else y) := by
  simp only [isServer_fill, Bool.or_false, Bool.false_eq_true, if_false]
  split
  · exact .error _
  · rename_i hserver
    simp only [Bool.or_eq_true, not_or, Bool.not_eq_true] at hserver
    exact h hserver.1 hserver.2

/-- Strict equality that is known over slots is the same over their contents. -/
theorem refines_strictEq (a b : Value) : Refines Eq (a.strictEq b) ((a.fill contents).strictEq (b.fill contents)) := by
  refine refines_comparison fun ha hb => ?_
  cases a with
  | server _ => simp [isServer] at ha
  | _ =>
    cases b with
    | server _ => simp [isServer] at hb
    | _ => exact .refl _

/-- Where two texts are treated on their own, filling does not make texts of anything else than server values. -/
theorem refines_texts {α : Type} {a b : Value} {onTexts : String → String → Except Obstacle α} {x y : Except Obstacle α}
    (ha : a.isServer = false) (hb : b.isServer = false) (h : Refines Eq x y) :
    Refines Eq (match a, b with | string s, string t => onTexts s t | _, _ => x)
      (match a.fill contents, b.fill contents with | string s, string t => onTexts s t | _, _ => y) := by
  cases a with
  | server _ => simp [isServer] at ha
  | string s =>
    cases b with
    | server _ => simp [isServer] at hb
    | string t => exact .refl _
    | _ => exact h
  | _ => exact h

/-- What is told of the numbers of two values. -/
theorem refines_numbers {α : Type} (f : Float → Float → α) (a b : Value) :
    Refines Eq (do return f (← a.toNumber) (← b.toNumber))
      (do return f (← (a.fill contents).toNumber) (← (b.fill contents).toNumber)) :=
  (refines_toNumber a).bind_eq fun _ => (refines_toNumber b).bind_eq fun _ => .refl _

/-- Loose equality that is known over slots is the same over their contents. -/
theorem refines_looseEq (a b : Value) : Refines Eq (a.looseEq b) ((a.fill contents).looseEq (b.fill contents)) := by
  refine refines_comparison fun ha hb => ?_
  simp only [isNullish_fill, isCompound_fill]
  split
  · exact .refl _
  · refine refines_texts ha hb ?_
    split
    · exact .refl _
    · exact refines_numbers (· == ·) a b

/-- An order that is known over slots is the same over their contents. -/
theorem refines_order (a b : Value) : Refines Eq (a.order b) ((a.fill contents).order (b.fill contents)) :=
  refines_comparison fun ha hb => refines_texts ha hb (refines_numbers orderNumbers a b)

/-- A property over slots becomes the property over their contents. -/
theorem refines_property (v : Value) (key : String) :
    Refines (fill contents · = ·) (v.property key) ((v.fill contents).property key) := by
  cases v with
  | server segments => exact .error _
  | object fields =>
    refine .ok ?_
    rw [fillFields_eq_map, lookup_map]
    exact (Option.getD_map (fill contents) undefined _).symm
  | array items =>
    refine .ok ?_
    rw [fillItems_eq_map, List.length_map]
    split
    · rfl
    · cases position? key with
      | none => rfl
      | some i =>
        simp only [Option.bind_some, List.getElem?_map]
        exact (Option.getD_map (fill contents) undefined _).symm
  | string s =>
    refine .ok ?_
    split
    · rfl
    · cases (position? key).bind fun i => Units.at? s i <;> rfl
  | bool _ | number _ => exact .ok rfl
  | undefined | null => exact .error _

/-- A member under a key over slots becomes the member over their contents. -/
theorem refines_member (v key : Value) :
    Refines (fill contents · = ·) (v.member key) ((v.fill contents).member (key.fill contents)) :=
  (refines_toText key).bind_eq fun name => refines_property v name

/-- A field that is set keeps its place when slots are filled. -/
theorem setField_fillFields (name : String) (v : Value) (fields : List (String × Value)) :
    fillFields contents (setField name v fields) = setField name (v.fill contents) (fillFields contents fields) := by
  induction fields with
  | nil => rfl
  | cons field fields ih =>
    simp only [setField, fillFields]
    split
    · rfl
    · rw [fillFields, ih]

end Value

end Prebake
