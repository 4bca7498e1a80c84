import Prebake.Value.Coercion

/-!
# Text with slots

As segments every value is a text, also a server value. `ofSegments` is the normal form: no empty text, no two texts
side by side, and a plain string when there is no slot.
-/

namespace Prebake

/-- Puts a segment in front of merged segments. -/
def Segment.consMerged : Segment → List Segment → List Segment
  | .text t, .text u :: rest => .text (t ++ u) :: rest
  | .text t, rest => if t = "" then rest else .text t :: rest
  | .slot name, rest => .slot name :: rest

/-- Segments without empty texts and without two texts side by side. -/
def Segment.merge (segments : List Segment) : List Segment := segments.foldr Segment.consMerged []

/-- Whether a segment is a slot. -/
def Segment.isSlot : Segment → Bool
  | .slot _ => true
  | .text _ => false

/-- The literal text of segments, leaving out the slots. -/
def Segment.literal : List Segment → String
  | [] => ""
  | .text t :: rest => t ++ literal rest
  | .slot _ :: rest => literal rest

namespace Value

mutual

/-- The value as text that may hold slots. -/
def toSegments : Value → List Segment
  | server segments => segments
  | array items => itemSegments items
  | value => [.text value.scalarText]

/-- The segments of the items of an array with commas between them. -/
def itemSegments : List Value → List Segment
  | [] => []
  | item :: items =>
    (if item.isNullish then [] else toSegments item) ++ if items.isEmpty then [] else .text "," :: itemSegments items

end

/-- The value of a text that may hold slots. -/
def ofSegments (segments : List Segment) : Value :=
  let merged := Segment.merge segments
  if merged.any Segment.isSlot then server merged else string (Segment.literal merged)

end Value

end Prebake
