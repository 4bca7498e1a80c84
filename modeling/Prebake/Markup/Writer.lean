import Prebake.Markup.Escape
import Prebake.Markup.Marker
import Prebake.Markup.Names
import Prebake.Markup.Style

/-!
# Writing markup

Markup is put together from parts: literal text, slots, and markup that stands as it is. Literal texts side by side
are written as one, so that no opening of a marker can come about where two of them meet.
-/

namespace Prebake

/-- A part of markup. -/
inductive Part where
  | literal (text : String)
  | slot (name : String)
  /-- Markup that stands as it is. -/
  | markup (html : String)
deriving DecidableEq, Repr, Inhabited

namespace Part

/-- A segment as a part of markup. -/
def ofSegment : Segment → Part
  | .text content => literal content
  | .slot name => slot name

/-- Puts a part in front of parts in which no literal is empty and no two literals stand side by side. -/
def consMerged : Part → List Part → List Part
  | literal s, literal t :: rest => literal (s ++ t) :: rest
  | literal s, rest => if s = "" then rest else literal s :: rest
  | part, rest => part :: rest

/-- The parts with literals side by side made one and empty literals left out. -/
def merge (parts : List Part) : List Part := parts.foldr consMerged []

/-- The text of merged parts; `afterMarker` tells whether a marker stands right before them. -/
def write (afterMarker : Bool) : List Part → List Char
  | [] => []
  | literal text :: rest =>
    let escaped := Markup.escape text
    (if afterMarker then Marker.neutralizeAfterMarker escaped else Marker.neutralize escaped).toList
      ++ write false rest
  | slot name :: rest => (Marker.ofSlot name).toList ++ write true rest
  | markup html :: rest => html.toList ++ write false rest

end Part

/-- The segments of a value as content, up to the first object in it, and the obstacle that an object is. -/
structure Content where
  segments : List Segment
  obstacle? : Option Obstacle
deriving Repr

namespace Value

mutual

/-- The value as content of an element: neither `undefined` and `null` nor conditions are shown, and the items of an
array follow each other. -/
def content : Value → Content
  | undefined | null | bool _ => ⟨[], none⟩
  | object _ => ⟨[], some .objectText⟩
  | array items => itemContents items
  | value => ⟨value.toSegments, none⟩

/-- The items of an array as content, one after the other. -/
def itemContents : List Value → Content
  | [] => ⟨[], none⟩
  | item :: items =>
    let first := content item
    match first.obstacle? with
    | some obstacle => ⟨first.segments, some obstacle⟩
    | none =>
      let others := itemContents items
      ⟨first.segments ++ others.segments, others.obstacle?⟩

end

end Value

/-- How a value is written as an attribute. -/
inductive Attribute where
  | omitted
  | nameOnly
  | quoted (segments : List Segment)
deriving DecidableEq, Repr

/-- Whether an attribute spells `true` out. -/
def spellsTrue (name : String) : Bool :=
  "data-".toList.isPrefixOf name.toList || "aria-".toList.isPrefixOf name.toList

/-- How a value is written as the attribute of a property. -/
def Value.toAttribute (property : String) : Value → Except Obstacle Attribute
  | undefined | null | bool false => .ok .omitted
  | bool true => .ok (if spellsTrue (Markup.attributeName property) then .quoted [.text "true"] else .nameOnly)
  | object fields =>
    if property = "style" then do
      let segments ← Style.segments fields
      return if segments.isEmpty then .omitted else .quoted segments
    else .error (.objectAttribute property)
  | value => .ok (.quoted value.toSegments)

/-- Markup in the making: its parts so far, and the slots of what it holds. -/
structure Writer where
  parts : Array Part
  slots : NameSet

namespace Writer

/-- Nothing written yet. -/
def empty : Writer := ⟨#[], NameMap.empty⟩

/-- Adds markup as it stands. -/
def raw (w : Writer) (html : String) : Writer := { w with parts := w.parts.push (.markup html) }

/-- Takes over the slots of markup that was written elsewhere. -/
def adopt (w : Writer) (slots : NameSet) : Writer := { w with slots := w.slots.union slots }

/-- Adds segments. -/
def push (w : Writer) (segments : List Segment) : Writer where
  parts := segments.foldl (fun parts segment => parts.push (.ofSegment segment)) w.parts
  slots := segments.foldl (fun slots segment => match segment with
    | .slot name => NameSet.add slots name
    | .text _ => slots) w.slots

/-- Opens a start tag. -/
def openTag (w : Writer) (tag : String) : Writer := w.raw ("<" ++ tag)

/-- Ends a start tag. -/
def closeTag (w : Writer) : Writer := w.raw ">"

/-- Ends the start tag of an element without an end tag. -/
def closeVoidTag (w : Writer) : Writer := w.raw " />"

/-- Adds an end tag. -/
def endTag (w : Writer) (tag : String) : Writer := w.raw ("</" ++ tag ++ ">")

/-- Adds an attribute to a start tag. -/
def pushAttribute (w : Writer) (name : String) : Attribute → Writer
  | .omitted => w
  | .nameOnly => w.raw (" " ++ name)
  | .quoted segments => ((w.raw (" " ++ name ++ "=\"")).push segments).raw "\""

/-- Adds the attribute of a property to a start tag. -/
def property (w : Writer) (name : String) (value : Value) : Except Obstacle Writer := do
  return w.pushAttribute (Markup.attributeName name) (← value.toAttribute name)

/-- Adds a value as content, up to the first object in it. -/
def text (w : Writer) (value : Value) : Writer × Option Obstacle :=
  let content := value.content
  (w.push content.segments, content.obstacle?)

/-- What has been written. -/
def html (w : Writer) : String := String.ofList (Part.write false (Part.merge w.parts.toList))

/-- Whether nothing has been written. -/
def isEmpty (w : Writer) : Bool := w.html == ""

end Writer

end Prebake
