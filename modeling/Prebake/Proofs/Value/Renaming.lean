import Prebake.Proofs.Except
import Prebake.Proofs.NameMap
import Prebake.Value.Operations

/-!
# Renaming the slots of values

A slot is known by its name only until a page is served. `Value.renameSlots` gives each slot of a value another name, also
inside of arrays and objects, where several slots may get the same name. No operation tells slots apart: on renamed values it
has the renamed result, or fails with the same obstacle.
-/

namespace Prebake

variable {f : String → String}

/-- The segment with another name for its slot. -/
def Segment.renameSlot (f : String → String) : Segment → Segment
  | .text content => .text content
  | .slot name => .slot (f name)

namespace Value

mutual

/-- The value with another name for each slot, also in items and in fields. -/
def renameSlots (f : String → String) : Value → Value
  | undefined => undefined
  | null => null
  | bool b => bool b
  | number x => number x
  | string s => string s
  | server segments => server (segments.map (Segment.renameSlot f))
  | array items => array (renameItems f items)
  | object fields => object (renameFields f fields)

/-- The items with another name for each slot. -/
def renameItems (f : String → String) : List Value → List Value
  | [] => []
  | item :: items => renameSlots f item :: renameItems f items

/-- The fields with another name for each slot; their own names stay. -/
def renameFields (f : String → String) : List (String × Value) → List (String × Value)
  | [] => []
  | (name, item) :: fields => (name, renameSlots f item) :: renameFields f fields

end

theorem renameItems_eq_map (items : List Value) : renameItems f items = items.map (renameSlots f) := by
  induction items with
  | nil => rfl
  | cons item items ih => rw [renameItems, ih, List.map_cons]

theorem renameFields_eq_map (fields : List (String × Value)) :
    renameFields f fields = fields.map fun field => (field.1, renameSlots f field.2) := by
  induction fields with
  | nil => rfl
  | cons field fields ih => rw [renameFields, ih, List.map_cons]

/-! ## What renaming leaves as it is -/

@[simp] theorem isNullish_renameSlots (v : Value) : (v.renameSlots f).isNullish = v.isNullish := by
  cases v <;> rfl

@[simp] theorem isCompound_renameSlots (v : Value) : (v.renameSlots f).isCompound = v.isCompound := by
  cases v <;> rfl

/-- Whether addition joins texts is decided by the kind of a value, and names of slots are no part of that. -/
@[simp] theorem joins_renameSlots (v : Value) : (v.renameSlots f).joins = v.joins := by
  cases v <;> rfl

@[simp] theorem typeName_renameSlots (v : Value) : (v.renameSlots f).typeName = v.typeName := by
  cases v <;> rfl

/-- A server value stays one, even if its slots all get the same name. -/
@[simp] theorem isServer_renameSlots (v : Value) : (v.renameSlots f).isServer = v.isServer := by
  cases v <;> rfl

/-- A condition is true, false or an obstacle whatever the slots are called. -/
@[simp] theorem truth_renameSlots (v : Value) : (v.renameSlots f).truth = v.truth := by
  cases v <;> rfl

mutual

/-- What is given as data holds no slots. -/
@[simp] theorem renameSlots_ofJson : ∀ json : Json, (ofJson json).renameSlots f = ofJson json
  | .null | .bool _ | .whole _ | .decimal _ | .string _ => rfl
  | .array items => by rw [ofJson, renameSlots, renameItems_ofJsonItems items]
  | .object fields => by rw [ofJson, renameSlots, renameFields_ofJsonFields fields]

theorem renameItems_ofJsonItems : ∀ items : List Json, renameItems f (ofJsonItems items) = ofJsonItems items
  | [] => rfl
  | item :: items => by rw [ofJsonItems, renameItems, renameSlots_ofJson item, renameItems_ofJsonItems items]

theorem renameFields_ofJsonFields : ∀ fields : List (String × Json),
    renameFields f (ofJsonFields fields) = ofJsonFields fields
  | [] => rfl
  | (_, item) :: fields => by
    rw [ofJsonFields, renameFields, renameSlots_ofJson item, renameFields_ofJsonFields fields]

end

mutual

/-- A value is a text only if it holds no slot where its text is taken from. -/
@[simp] theorem toText_renameSlots : ∀ v : Value, (v.renameSlots f).toText = v.toText
  | undefined | null | bool _ | number _ | string _ | server _ | object _ => rfl
  | array items => by rw [renameSlots, toText, toText, itemTexts_renameItems items]

/-- The texts of items, or the first obstacle among them, do not tell what slots are called. -/
theorem itemTexts_renameItems : ∀ items : List Value, itemTexts (renameItems f items) = itemTexts items
  | [] => rfl
  | item :: items => by
    rw [renameItems, itemTexts, itemTexts, isNullish_renameSlots, toText_renameSlots item, itemTexts_renameItems items]

end

/-- Only what has no slots is turned into a number. -/
@[simp] theorem toNumber_renameSlots (v : Value) : (v.renameSlots f).toNumber = v.toNumber := by
  cases v with
  | array items =>
    have htext : (renameSlots f (array items)).toText = (array items).toText := toText_renameSlots _
    rw [renameSlots] at htext ⊢
    simp only [toNumber, htext]
  | _ => rfl

end Value

/-! ## Text with slots -/

namespace Segment

@[simp] theorem isSlot_renameSlot (segment : Segment) : (segment.renameSlot f).isSlot = segment.isSlot := by
  cases segment <;> rfl

/-- Literal text is merged with literal text only, so names of slots have no say in it. -/
theorem consMerged_renameSlot (segment : Segment) (merged : List Segment) :
    consMerged (segment.renameSlot f) (merged.map (renameSlot f)) = (consMerged segment merged).map (renameSlot f) := by
  cases segment with
  | slot name => rfl
  | text s =>
    cases merged with
    | nil =>
      simp only [renameSlot, List.map_nil, consMerged]
      split <;> rfl
    | cons first rest =>
      cases first with
      | text t => rfl
      | slot name =>
        simp only [renameSlot, List.map_cons, consMerged]
        split <;> rfl

/-- Renaming and merging can change places. -/
theorem merge_renameSlot (segments : List Segment) :
    merge (segments.map (renameSlot f)) = (merge segments).map (renameSlot f) := by
  induction segments with
  | nil => rfl
  | cons segment segments ih =>
    show consMerged (segment.renameSlot f) (merge (segments.map (renameSlot f))) =
      (consMerged segment (merge segments)).map (renameSlot f)
    rw [ih, consMerged_renameSlot]

/-- Text with slots still has some after renaming, and text without them has none. -/
theorem any_isSlot_renameSlot (segments : List Segment) :
    (segments.map (renameSlot f)).any isSlot = segments.any isSlot := by
  rw [List.any_map]
  exact congrArg segments.any (funext isSlot_renameSlot)

/-- The literal text of segments has no names in it. -/
theorem literal_renameSlot (segments : List Segment) : literal (segments.map (renameSlot f)) = literal segments := by
  induction segments with
  | nil => rfl
  | cons segment segments ih => cases segment <;> simp only [List.map_cons, renameSlot, literal, ih]

end Segment

namespace Value

/-- Segments that are renamed make a renamed value. -/
theorem ofSegments_renameSlot (segments : List Segment) :
    ofSegments (segments.map (Segment.renameSlot f)) = (ofSegments segments).renameSlots f := by
  simp only [ofSegments, Segment.merge_renameSlot, Segment.any_isSlot_renameSlot, Segment.literal_renameSlot]
  split <;> rfl

mutual

/-- The text of a renamed value is its renamed text. -/
theorem toSegments_renameSlots : ∀ v : Value, (v.renameSlots f).toSegments = v.toSegments.map (Segment.renameSlot f)
  | undefined | null | bool _ | number _ | string _ | server _ | object _ => rfl
  | array items => by rw [renameSlots, toSegments, toSegments, itemSegments_renameItems items]

/-- The joined text of renamed items is their renamed joined text. -/
theorem itemSegments_renameItems : ∀ items : List Value,
    itemSegments (renameItems f items) = (itemSegments items).map (Segment.renameSlot f)
  | [] => rfl
  | item :: items => by
    have hempty : (renameItems f items).isEmpty = items.isEmpty := by rw [renameItems_eq_map, List.isEmpty_map]
    rw [renameItems, itemSegments, itemSegments, isNullish_renameSlots, hempty, toSegments_renameSlots item,
      itemSegments_renameItems items, List.map_append]
    congr 1
    · split <;> rfl
    · split <;> rfl

end

/-! ## Operations -/

section Operations

variable (a b : Value)

/-- The sum of renamed values is their renamed sum. -/
theorem agrees_add : Agrees (renameSlots f · = ·) (a.add b) ((a.renameSlots f).add (b.renameSlots f)) := by
  simp only [add, joins_renameSlots, toSegments_renameSlots, toNumber_renameSlots, ← List.map_append]
  split
  · exact .ok (ofSegments_renameSlot _).symm
  · exact (Agrees.refl a.toNumber).bind_eq fun _ => (Agrees.refl b.toNumber).bind_eq fun _ => .ok rfl

/-- Strict equality compares no slots: with one it is an obstacle, before and after. -/
@[simp] theorem strictEq_renameSlots : (a.renameSlots f).strictEq (b.renameSlots f) = a.strictEq b := by
  simp only [strictEq, isServer_renameSlots]
  cases a <;> cases b <;> rfl

/-- Loose equality does not compare slots either. -/
@[simp] theorem looseEq_renameSlots : (a.renameSlots f).looseEq (b.renameSlots f) = a.looseEq b := by
  simp only [looseEq, isServer_renameSlots, isNullish_renameSlots, isCompound_renameSlots, toNumber_renameSlots]
  cases a <;> cases b <;> rfl

/-- Server values have no order that renaming could upset. -/
@[simp] theorem order_renameSlots : (a.renameSlots f).order (b.renameSlots f) = a.order b := by
  simp only [order, isServer_renameSlots, toNumber_renameSlots]
  cases a <;> cases b <;> rfl

/-- The property of a renamed value is the renamed property. -/
theorem agrees_property (key : String) :
    Agrees (renameSlots f · = ·) (a.property key) ((a.renameSlots f).property key) := by
  cases a with
  | server segments => exact .error _
  | object fields =>
    refine .ok ?_
    rw [renameFields_eq_map, lookup_map]
    exact (Option.getD_map (renameSlots f) undefined _).symm
  | array items =>
    refine .ok ?_
    rw [renameItems_eq_map, List.length_map]
    split
    · rfl
    · cases position? key with
      | none => rfl
      | some i =>
        simp only [Option.bind_some, List.getElem?_map]
        exact (Option.getD_map (renameSlots f) undefined _).symm
  | string s =>
    refine .ok ?_
    split
    · rfl
    · cases (position? key).bind fun i => Units.at? s i <;> rfl
  | bool _ | number _ => exact .ok rfl
  | undefined | null => exact .error _

/-- Keys are renamed along with the value, which changes nothing: a key with slots is an obstacle. -/
theorem agrees_member : Agrees (renameSlots f · = ·) (a.member b) ((a.renameSlots f).member (b.renameSlots f)) := by
  rw [member, member, toText_renameSlots]
  exact (Agrees.refl b.toText).bind_eq fun name => a.agrees_property name

end Operations

/-- A field that is set keeps its place when slots are renamed. -/
theorem setField_renameFields (name : String) (v : Value) (fields : List (String × Value)) :
    renameFields f (setField name v fields) = setField name (v.renameSlots f) (renameFields f fields) := by
  induction fields with
  | nil => rfl
  | cons field fields ih =>
    simp only [setField, renameFields]
    split
    · rfl
    · rw [renameFields, ih]

end Value

end Prebake
