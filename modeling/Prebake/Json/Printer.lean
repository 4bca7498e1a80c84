import Prebake.Json.Number
import Prebake.Json.Text

/-!
# Writing JSON texts

A value is written either without any blanks or with each item and each field on a line of its own, indented by two
blanks for every level.
-/

namespace Prebake.Json

/-- How the items of lists and objects are set apart: not at all, or on lines indented to a level. -/
inductive Layout where
  | compact
  | lines (level : Nat)
deriving DecidableEq, Repr

namespace Layout

/-- The layout inside a list or an object. -/
def inner : Layout → Layout
  | compact => compact
  | lines level => lines (level + 1)

/-- What separates two lines. -/
def newline : Layout → List Char
  | compact => []
  | lines level => '\n' :: List.replicate (2 * level) ' '

/-- What stands between the name of a field and its value. -/
def colon : Layout → List Char
  | compact => [':']
  | lines _ => [':', ' ']

end Layout

mutual

/-- The text of a value. -/
def write (layout : Layout) : Json → List Char
  | .null => "null".toList
  | .bool b => if b then "true".toList else "false".toList
  | .whole n => (toString n).toList
  | .decimal x => (writeFloat x).toList
  | .string s => Text.write s
  | .array items =>
    if items.isEmpty then ['[', ']']
    else '[' :: (layout.inner.newline ++ writeItems layout.inner items ++ layout.newline ++ [']'])
  | .object fields =>
    if fields.isEmpty then ['\x7b', '\x7d']
    else '\x7b' :: (layout.inner.newline ++ writeFields layout.inner fields ++ layout.newline ++ ['\x7d'])

/-- The items of a list with commas between them. -/
def writeItems (layout : Layout) : List Json → List Char
  | [] => []
  | item :: items =>
    write layout item ++ if items.isEmpty then [] else ',' :: (layout.newline ++ writeItems layout items)

/-- The fields of an object with commas between them. -/
def writeFields (layout : Layout) : List (String × Json) → List Char
  | [] => []
  | (name, item) :: fields =>
    Text.write name ++ layout.colon ++ write layout item
      ++ if fields.isEmpty then [] else ',' :: (layout.newline ++ writeFields layout fields)

end

/-- The text of a value without blanks. -/
def compact (json : Json) : String := String.ofList (write .compact json)

/-- The text of a value on several lines. -/
def pretty (json : Json) : String := String.ofList (write (.lines 0) json)

end Prebake.Json
