/-!
# Escaped text

The five characters that mean something in markup are written as character references, so that an escaped text can
stand between tags and inside quoted attribute values.
-/

namespace Prebake.Markup

/-- What is written for a character of literal text. -/
def escapeChar : Char → List Char
  | '&' => "&amp;".toList
  | '<' => "&lt;".toList
  | '>' => "&gt;".toList
  | '"' => "&quot;".toList
  | '\'' => "&#39;".toList
  | c => [c]

/-- Literal text as it is written. -/
def escape (text : String) : String := String.ofList (text.toList.flatMap escapeChar)

end Prebake.Markup
