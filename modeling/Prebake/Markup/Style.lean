import Prebake.Text.Uppercase
import Prebake.Value.Segments

/-!
# Style declarations

An object given as `style` is written as declarations. A number other than zero counts pixels unless the property has
no unit; entries without a value are left out.
-/

namespace Prebake.Style

/-- The properties whose numbers have no unit. -/
def unitlessProperties : List String :=
  ["animationIterationCount", "aspectRatio", "borderImageOutset", "borderImageSlice", "borderImageWidth",
    "columnCount", "columns", "flex", "flexGrow", "flexPositive", "flexShrink", "flexNegative", "flexOrder",
    "fontWeight", "gridArea", "gridColumn", "gridColumnEnd", "gridColumnStart", "gridRow", "gridRowEnd",
    "gridRowStart", "lineClamp", "lineHeight", "opacity", "order", "orphans", "scale", "tabSize", "widows", "zIndex",
    "zoom", "fillOpacity", "floodOpacity", "stopOpacity", "strokeDasharray", "strokeDashoffset", "strokeMiterlimit",
    "strokeOpacity", "strokeWidth"]

/-- Whether a name is that of a custom property, which is written as it is. -/
def isCustom : List Char → Bool
  | '-' :: '-' :: _ => true
  | _ => false

/-- Whether a number for a property has no unit. -/
def isUnitless (property : String) : Bool := isCustom property.toList || unitlessProperties.contains property

/-- Whether a name starts with the vendor mark `ms` and an upper-case letter. -/
def hasVendorMark : List Char → Bool
  | 'm' :: 's' :: c :: _ => isUppercase c
  | _ => false

/-- What is written for a character of the name of a property. -/
def nameChar (c : Char) : List Char := if c.isUpper then ['-', c.toLower] else [c]

/-- The name of a property as it is written in a declaration. -/
def propertyName (property : String) : String :=
  let chars := property.toList
  if isCustom chars then property
  else String.ofList ((if hasVendorMark chars then ['-'] else []) ++ chars.flatMap nameChar)

/-- The segments of the value of an entry, or nothing if the entry is left out. -/
def entryValue (property : String) : Value → Except Obstacle (Option (List Segment))
  | .undefined | .null | .bool _ => .ok none
  | .array _ | .object _ => .error (.styleEntry property)
  | .string s => .ok (if (trimBlank s.toList).isEmpty then none else some [.text s])
  | .number x =>
    let unit := if x != 0.0 && !isUnitless property then "px" else ""
    .ok (some [.text (writeNumber x ++ unit)])
  | .server segments => .ok (some segments)

/-- The segments of a declaration, or nothing if its entry is left out. -/
def declaration (property : String) (value : Value) : Except Obstacle (Option (List Segment)) := do
  return (← entryValue property value).map (.text (propertyName property ++ ":") :: ·)

/-- The declarations of the entries that are not left out. -/
def declarations : List (String × Value) → Except Obstacle (List (List Segment))
  | [] => .ok []
  | (property, value) :: rest => do
    match ← declaration property value with
    | some segments => return segments :: (← declarations rest)
    | none => declarations rest

/-- The segments of an object given as `style`: its declarations with semicolons between them. -/
def segments (fields : List (String × Value)) : Except Obstacle (List Segment) := do
  return [Segment.text ";"].intercalate (← declarations fields)

end Prebake.Style
