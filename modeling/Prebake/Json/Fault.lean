/-!
# Faults in JSON texts

A text is refused either because it is no JSON or because it is JSON of another shape than was asked for.
-/

namespace Prebake.Json

/-- What was unfinished when a text ended. -/
inductive Unfinished where
  | value
  | object
  | list
  | string
deriving DecidableEq, Repr

/-- What is wrong with a JSON text, or with the data in it. -/
inductive Fault where
  | ended (inside : Unfinished)
  | expectedValue
  | expectedWord
  | expectedColon
  | expectedObjectEnd
  | expectedListEnd
  | keyNoString
  | trailingComma
  | trailingCharacters
  | invalidNumber
  | numberOutOfRange
  | invalidEscape
  | loneSurrogate
  | unpairedSurrogate
  | controlCharacter
  | nestedTooDeeply
  | missingField (name : String)
  | duplicateField (name : String)
  | unknownField (name : String) (known : List String)
  | unknownVariant (name : String) (known : List String)
  | invalidType (found wanted : String)
  | invalidLength (length : Nat) (wanted : String)
deriving DecidableEq, Repr

/-- A name in grave accents. -/
def quoteName (name : String) : String := "`" ++ name ++ "`"

/-- A list of the names that would have been accepted. -/
def nameChoices : List String → String
  | [a] => quoteName a
  | [a, b] => quoteName a ++ " or " ++ quoteName b
  | names => "one of " ++ String.intercalate ", " (names.map quoteName)

/-- The wording of an unfinished part. -/
def Unfinished.message : Unfinished → String
  | value => "EOF while parsing a value"
  | object => "EOF while parsing an object"
  | list => "EOF while parsing a list"
  | string => "EOF while parsing a string"

/-- The wording of a fault. -/
def Fault.message : Fault → String
  | ended inside => inside.message
  | expectedValue => "expected value"
  | expectedWord => "expected ident"
  | expectedColon => "expected `:`"
  | expectedObjectEnd => "expected `,` or `\x7d`"
  | expectedListEnd => "expected `,` or `]`"
  | keyNoString => "key must be a string"
  | trailingComma => "trailing comma"
  | trailingCharacters => "trailing characters"
  | invalidNumber => "invalid number"
  | numberOutOfRange => "number out of range"
  | invalidEscape => "invalid escape"
  | loneSurrogate => "lone leading surrogate in hex escape"
  | unpairedSurrogate => "unexpected end of hex escape"
  | controlCharacter => "control character (\\u0000-\\u001F) found while parsing a string"
  | nestedTooDeeply => "recursion limit exceeded"
  | missingField name => "missing field " ++ quoteName name
  | duplicateField name => "duplicate field " ++ quoteName name
  | unknownField name known => "unknown field " ++ quoteName name ++ ", expected " ++ nameChoices known
  | unknownVariant name known => "unknown variant " ++ quoteName name ++ ", expected " ++ nameChoices known
  | invalidType found wanted => "invalid type: " ++ found ++ ", expected " ++ wanted
  | invalidLength length wanted => "invalid length " ++ toString length ++ ", expected " ++ wanted

end Prebake.Json
