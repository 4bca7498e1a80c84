import Mathlib.Data.List.Basic
import Prebake.Proofs.Rendering

/-!
# Literals without markup

Literals and slots are known before any scope is, and so is whether they have markup. Slots always have. What a literal has
none of is an object: as content, where an array is as good as its items; as an attribute, unless it gives the declarations of
`style`; and as one of these declarations. `Given.obstacle?` says this without writing anything, and `error?_addProps` says that
properties which are known fail with the first obstacle among them and with nothing else, whatever the scope.
-/

namespace Prebake

/-! ## What stands in the way -/

namespace Json

/-- Whether a value is an array or an object. -/
def isCompound : Json → Bool
  | array _ | object _ => true
  | _ => false

mutual

/-- Whether a value is an object or an array that holds one, also in arrays within arrays. -/
def holdsObject : Json → Bool
  | object _ => true
  | array items => itemsHoldObject items
  | _ => false

/-- Whether an object is among the items, or in a list among them. -/
def itemsHoldObject : List Json → Bool
  | [] => false
  | item :: items => holdsObject item || itemsHoldObject items

end

/-- What keeps a value from being written as content. -/
def contentObstacle? (value : Json) : Option Obstacle := if value.holdsObject then some .objectText else none

/-- What keeps a value from being written as the attribute of a property. -/
def attributeObstacle? (prop : String) : Json → Option Obstacle
  | object fields =>
    if prop = "style" then (fields.find? fun field => field.2.isCompound).map fun field => .styleEntry field.1
    else some (.objectAttribute prop)
  | _ => none

end Json

namespace Given

/-- Whether a value is given as a literal or by the server. -/
def isKnown : Given → Bool
  | literal _ | slot _ => true
  | _ => false

/-- What keeps a property from being written if it is given as a literal. -/
def obstacle? (prop : String) : Given → Option Obstacle
  | literal value =>
    if Markup.isSkipped prop then none
    else if Markup.isContent prop then value.contentObstacle?
    else value.attributeObstacle? prop
  | _ => none

end Given

/-- The first obstacle among some properties, and the property that it stands in the way of. -/
def Givens.obstacle? (props : Givens) : Option Reason :=
  props.findSome? fun entry => (entry.2.obstacle? entry.1).map (Reason.notComputable entry.1)

/-! ## Errors -/

/-- The error with which a computation fails. -/
def error? {ε α : Type} : Except ε α → Option ε
  | .ok _ => none
  | .error e => some e

section

variable {ε α β : Type} {x : Except ε α}

theorem error?_eq_some_iff {e : ε} : error? x = some e ↔ x = .error e := by
  cases x with
  | ok a => exact ⟨nofun, nofun⟩
  | error first => simp [error?]

theorem error?_eq_none_iff : error? x = none ↔ ∃ a, x = .ok a := by
  cases x with
  | ok a => simp [error?]
  | error e => simp [error?]

/-- A step that cannot fail does not change how a computation fails. -/
theorem error?_bind_ok (x : Except ε α) (f : α → β) : error? (do return f (← x)) = error? x := by
  cases x <;> rfl

/-- What comes after an error does not matter. -/
theorem error?_bind_of_error {e : ε} (h : error? x = some e) (f : α → Except ε β) : error? (x >>= f) = some e := by
  rw [error?_eq_some_iff.1 h]
  rfl

end

/-! ## Writing literals -/

mutual

/-- A literal is written as content up to the first object in it. -/
theorem obstacle?_content : ∀ value : Json, (Value.ofJson value).content.obstacle? = value.contentObstacle?
  | .null | .bool _ | .whole _ | .decimal _ | .string _ | .object _ => rfl
  | .array items => obstacle?_itemContents items

/-- Items are written as content up to the first object in them. -/
theorem obstacle?_itemContents : ∀ items : List Json,
    (Value.itemContents (Value.ofJsonItems items)).obstacle? = if Json.itemsHoldObject items then some .objectText else none
  | [] => rfl
  | item :: items => by
    have hitem := obstacle?_content item
    have hitems := obstacle?_itemContents items
    rw [Json.contentObstacle?] at hitem
    rw [Value.ofJsonItems, Value.itemContents, Json.itemsHoldObject]
    cases hobject : item.holdsObject with
    | true =>
      rw [hobject] at hitem
      rw [hitem]
      rfl
    | false =>
      rw [hobject] at hitem
      rw [hitem]
      exact hitems

end

/-- A declaration cannot be given as a list or an object. -/
theorem error?_entryValue (prop : String) (value : Json) :
    error? (Style.entryValue prop (.ofJson value)) = if value.isCompound then some (.styleEntry prop) else none := by
  cases value <;> rfl

/-- Declarations fail with the first entry that is an array or an object. -/
theorem error?_declarations (fields : List (String × Json)) : error? (Style.declarations (Value.ofJsonFields fields)) =
    (fields.find? fun field => field.2.isCompound).map fun field => .styleEntry field.1 := by
  induction fields with
  | nil => rfl
  | cons field fields ih =>
    obtain ⟨prop, value⟩ := field
    have hdeclaration : error? (Style.declaration prop (.ofJson value)) =
        if value.isCompound then some (.styleEntry prop) else none := by
      rw [Style.declaration, error?_bind_ok, error?_entryValue]
    rw [Value.ofJsonFields, Style.declarations, List.find?_cons]
    cases hcompound : value.isCompound with
    | true =>
      rw [hcompound] at hdeclaration
      exact error?_bind_of_error hdeclaration _
    | false =>
      rw [hcompound] at hdeclaration
      obtain ⟨segments?, hsegments⟩ := error?_eq_none_iff.1 hdeclaration
      rw [hsegments]
      cases segments? with
      | none => exact ih
      | some segments => exact (error?_bind_ok _ _).trans ih

/-- An attribute fails with what keeps the literal from being written. -/
theorem error?_toAttribute (prop : String) (value : Json) :
    error? ((Value.ofJson value).toAttribute prop) = value.attributeObstacle? prop := by
  cases value with
  | null | whole _ | decimal _ | string _ | array _ => rfl
  | bool b => cases b <;> rfl
  | object fields =>
    rw [Value.ofJson, Value.toAttribute, Json.attributeObstacle?]
    split
    · rw [← error?_declarations, error?_bind_ok, Style.segments, error?_bind_ok]
    · rfl

namespace Draft

variable {draft : Draft} {scope : Scope} {prop : String} {given : Given} {props : Givens}

/-- A literal fails with what keeps it from being written in its place. -/
theorem error?_addValue_ofJson (draft : Draft) (prop : String) (value : Json) : error? (draft.addValue prop (.ofJson value)) =
    (if Markup.isContent prop then value.contentObstacle? else value.attributeObstacle? prop).map
      (Reason.notComputable prop) := by
  rw [addValue]
  split
  · rw [← obstacle?_content, Writer.text]
    cases (Value.ofJson value).content.obstacle? <;> rfl
  · have hproperty := error?_bind_ok ((Value.ofJson value).toAttribute prop)
      (draft.start.pushAttribute (Markup.attributeName prop))
    rw [error?_toAttribute] at hproperty
    rw [← hproperty, Writer.property]
    cases (Value.ofJson value).toAttribute prop <;> rfl

/-- A slot can always be written. -/
theorem error?_addValue_ofSlot (draft : Draft) (prop name : String) : error? (draft.addValue prop (.ofSlot name)) = none := by
  rw [addValue]
  split <;> rfl

/-- A property that is known fails with what keeps it from being written. -/
theorem error?_addProp (hknown : given.isKnown = true) :
    error? (draft.addProp scope prop given) = (given.obstacle? prop).map (Reason.notComputable prop) := by
  rw [addProp]
  cases given with
  | expression _ | unclassified _ => cases hknown
  | literal value =>
    rw [Given.obstacle?]
    split
    · rfl
    · exact error?_addValue_ofJson draft prop value
  | slot name =>
    split
    · rfl
    · exact error?_addValue_ofSlot draft prop name

/-- Properties that are known fail with the first obstacle among them. -/
theorem error?_addProps (hknown : ∀ entry ∈ props, entry.2.isKnown = true) (draft : Draft) :
    error? (draft.addProps scope props) = props.obstacle? := by
  induction props generalizing draft with
  | nil => rfl
  | cons entry props ih =>
    obtain ⟨prop, given⟩ := entry
    obtain ⟨hfirst, hrest⟩ := List.forall_mem_cons.1 hknown
    have hadded : error? (draft.addProp scope prop given) = (given.obstacle? prop).map (Reason.notComputable prop) :=
      error?_addProp hfirst
    rw [addProps, Givens.obstacle?, List.findSome?_cons, ← hadded]
    cases hnext : draft.addProp scope prop given with
    | ok next => exact ih hrest next
    | error reason => rfl

end Draft

namespace Primitive

variable {p : Primitive} {children : List (Option Rendered)} {markup : List Rendered} {scope : Scope}

/-- Once its children have markup, a primitive whose properties are known is deferred for the first obstacle among them only. -/
theorem error?_attempt (hchildren : childMarkup (p.children.zip children) = .ok markup)
    (hknown : ∀ entry ∈ p.props, entry.2.isKnown = true) : error? (p.attempt children scope) = p.props.obstacle? := by
  have hprops : error? ((Draft.begin p.tag).addProps scope p.props) = p.props.obstacle? := Draft.error?_addProps hknown _
  rw [attempt, hchildren, ← hprops]
  exact error?_bind_ok _ _

end Primitive

end Prebake
