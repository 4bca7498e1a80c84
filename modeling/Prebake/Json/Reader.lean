import Prebake.Json.Number
import Prebake.Json.Text
import Prebake.Text.Shown

/-!
# Reading JSON texts

A reader takes a value of some shape off the front of a text. The first fault in reading order is the one reported: a
value of the wrong shape is refused before anything after its first token is looked at. Values that nobody asked for
are only skipped, and not everything is checked in them.

Readers of lists and objects take the number of levels that may still be opened.
-/

namespace Prebake.Json

/-- Takes a value off the front of a text. -/
abbrev Reader (α : Type) : Type := StateT (List Char) (Except Fault) α

namespace Reader

/-- Refuses the text. -/
def refuse {α : Type} (fault : Fault) : Reader α := fun _ => .error fault

/-- How many lists and objects may be open at once. -/
def maxLevels : Nat := 127

/-- The characters between the tokens of a text. -/
def isBlank (c : Char) : Bool := c == ' ' || c == '\n' || c == '\t' || c == '\r'

/-- The next character after blanks, which is left in place. -/
def peek : Reader (Option Char) := do
  modify (List.dropWhile isBlank)
  return (← get).head?

/-- Takes one character. -/
def skip : Reader Unit := modify List.tail

/-- Takes the rest of a word after its first letter. -/
def word : List Char → Reader Unit
  | [] => pure ()
  | expected :: more => do
    match ← get with
    | [] => refuse (.ended .value)
    | c :: rest =>
      if c = expected then
        set rest
        word more
      else refuse .expectedWord

/-- Takes the rest of a string after its opening quote. -/
def stringRest : Reader String := fun s => Text.read s

/-- Takes a number that starts with a given character. -/
def number (c : Char) : Reader Json := fun s =>
  if c = '-' then Json.readNumber true s.tail else Json.readNumber false s

/-- The end of a list that was read as far as anyone asked for. -/
def endList : Reader Unit := do
  match ← peek with
  | none => refuse (.ended .list)
  | some ']' => skip
  | some ',' =>
    skip
    match ← peek with
    | some ']' => refuse .trailingComma
    | _ => refuse .trailingCharacters
  | some _ => refuse .trailingCharacters

/-- Whether another item of a list follows; `first` holds before the first one. -/
def hasItem (first : Bool) : Reader Bool := do
  match ← peek with
  | none => refuse (.ended .list)
  | some ']' => return false
  | some c =>
    if first then return true
    else if c = ',' then
      skip
      match ← peek with
      | none => refuse (.ended .value)
      | some ']' => refuse .trailingComma
      | some _ => return true
    else refuse .expectedListEnd

/-- Whether another field of an object follows; `first` holds before the first one. -/
def hasField (first : Bool) : Reader Bool := do
  match ← peek with
  | none => refuse (.ended .object)
  | some '\x7d' => return false
  | some c =>
    if first then
      if c = '"' then return true else refuse .keyNoString
    else if c = ',' then
      skip
      match ← peek with
      | none => refuse (.ended .value)
      | some '\x7d' => refuse .trailingComma
      | some '"' => return true
      | some _ => refuse .keyNoString
    else refuse .expectedObjectEnd

/-- The name of a field. -/
def fieldName : Reader String := do
  skip
  stringRest

/-- The colon after the name of a field. -/
def colon : Reader Unit := do
  match ← peek with
  | none => refuse (.ended .object)
  | some ':' => skip
  | some _ => refuse .expectedColon

/-- Reads the items of a list one after the other into a state; `bound` is more than their number. -/
def itemLoop {σ : Type} (item : σ → Reader σ) : Nat → Bool → σ → Reader σ
  | 0, _, _ => refuse .trailingCharacters
  | bound + 1, first, state => do
    if ← hasItem first then itemLoop item bound false (← item state)
    else return state

/-- Reads the fields of an object one after the other into a state; `bound` is more than their number. -/
def fieldLoop {σ : Type} (field : σ → String → Reader σ) : Nat → Bool → σ → Reader σ
  | 0, _, _ => refuse .trailingCharacters
  | bound + 1, first, state => do
    if ← hasField first then
      let name ← fieldName
      fieldLoop field bound false (← field state name)
    else return state

/-- The items of a list after its opening bracket, which is closed. -/
def items {α : Type} (item : Reader α) : Reader (List α) := do
  let read ← itemLoop (fun done => do return (← item) :: done) ((← get).length + 1) true []
  skip
  return read.reverse

/-- The fields of an object after its opening brace, which is closed. After the name of a field its reader takes the
colon and the value. -/
def fields {σ : Type} (field : σ → String → Reader σ) (start : σ) : Reader σ := do
  let read ← fieldLoop field ((← get).length + 1) true start
  skip
  return read

/-- Goes one level deeper. -/
def nested {α : Type} (read : Nat → Reader α) : Nat → Reader α
  | 0 => refuse .nestedTooDeeply
  | levels + 1 => do
    skip
    read levels

/-- A value of any shape, where the readers of lists and objects are given. -/
def valueWith (list object : Reader Json) : Reader Json := do
  match ← peek with
  | none => refuse (.ended .value)
  | some 'n' =>
    skip
    word ['u', 'l', 'l']
    return .null
  | some 't' =>
    skip
    word ['r', 'u', 'e']
    return .bool true
  | some 'f' =>
    skip
    word ['a', 'l', 's', 'e']
    return .bool false
  | some '"' =>
    skip
    return .string (← stringRest)
  | some '[' => list
  | some '\x7b' => object
  | some c => if c = '-' || c.isDigit then number c else refuse .expectedValue

/-- A value of any shape. Of the fields of one name the last one counts, at the place of the first. -/
def value : Nat → Reader Json
  | 0 => valueWith (refuse .nestedTooDeeply) (refuse .nestedTooDeeply)
  | levels + 1 =>
    valueWith
      (do
        skip
        return .array (← items (value levels)))
      (do
        skip
        return .object (← fields (fun done name => do
          colon
          return setField name (← value levels) done) []))

/-- A value as messages name it. -/
def kindText : Json → String
  | .null => "null"
  | .bool b => "boolean " ++ quoteName (if b then "true" else "false")
  | .whole n => "integer " ++ quoteName (toString n)
  | .decimal x => "floating point " ++ quoteName (writeFloat x)
  | .string s => "string " ++ shown s
  | .array _ => "sequence"
  | .object _ => "map"

/-- Refuses the value that starts here because of its type. Of a list or an object only the start is looked at. -/
def wrongType {α : Type} (wanted : String) : Reader α := do
  match ← peek with
  | some '[' => refuse (.invalidType "sequence" wanted)
  | some '\x7b' => refuse (.invalidType "map" wanted)
  | _ => refuse (.invalidType (kindText (← value 0)) wanted)

/-! ### Values that nobody asked for -/

/-- Takes digits. -/
def skipDigits : Reader Unit := modify (List.dropWhile Char.isDigit)

/-- The exponent of a number after its mark, where it is only skipped. -/
def skipExponent : Reader Unit := do
  match ← get with
  | '+' :: rest | '-' :: rest => set rest
  | _ => pure ()
  if (← get).head?.any Char.isDigit then skipDigits else refuse .invalidNumber

/-- A number after its sign, where it is only skipped. -/
def skipNumber : Reader Unit := do
  match ← get with
  | c :: rest =>
    if !c.isDigit then refuse .invalidNumber
    if c = '0' && rest.head?.any Char.isDigit then refuse .invalidNumber
    skipDigits
  | [] => refuse .invalidNumber
  match ← get with
  | '.' :: rest =>
    set rest
    if (← get).head?.any Char.isDigit then skipDigits else refuse .invalidNumber
    match ← get with
    | 'e' :: rest | 'E' :: rest =>
      set rest
      skipExponent
    | _ => pure ()
  | 'e' :: rest | 'E' :: rest =>
    set rest
    skipExponent
  | _ => pure ()

/-- The name of a field and its colon, where they are only skipped. -/
def skipName : Reader Unit := do
  match ← peek with
  | none => refuse (.ended .object)
  | some '"' =>
    skip
    set (← Text.skipBody 0 (← get))
  | some _ => refuse .keyNoString
  colon

/-- The items of a list, or the fields of an object, up to the closing sign, which is taken. -/
def skipItems (close : Char) (inside : Unfinished) (misplaced : Fault) (item : Reader Unit) :
    Nat → Bool → Reader Unit
  | 0, _ => refuse misplaced
  | bound + 1, first => do
    match ← peek with
    | none => refuse (.ended inside)
    | some c =>
      if c = close then skip
      else
        if !first then
          if c = ',' then skip else refuse misplaced
        item
        skipItems close inside misplaced item bound false

/-- A value that is only skipped, where what skips the rest of a list and of an object is given. -/
def skipWith (list object : Reader Unit) : Reader Unit := do
  match ← peek with
  | none => refuse (.ended .value)
  | some 'n' =>
    skip
    word ['u', 'l', 'l']
  | some 't' =>
    skip
    word ['r', 'u', 'e']
  | some 'f' =>
    skip
    word ['a', 'l', 's', 'e']
  | some '"' =>
    skip
    set (← Text.skipBody 0 (← get))
  | some '[' =>
    skip
    list
  | some '\x7b' =>
    skip
    object
  | some '-' =>
    skip
    skipNumber
  | some c => if c.isDigit then skipNumber else refuse .expectedValue

/-- A value that is only skipped, where at most so many levels are open at once. -/
def skipValue : Nat → Reader Unit
  | 0 => skipWith (refuse .expectedValue) (refuse .expectedValue)
  | levels + 1 =>
    skipWith
      (do skipItems ']' .list .expectedListEnd (skipValue levels) ((← get).length + 1) true)
      (do
        let field : Reader Unit := do
          skipName
          skipValue levels
        skipItems '\x7d' .object .expectedObjectEnd field ((← get).length + 1) true)

/-- A value that nobody asked for. No text nests more deeply than it is long. -/
def ignored : Reader Unit := do
  skipValue (← get).length

/-- The end of a text. -/
def finish : Reader Unit := do
  match ← peek with
  | none => pure ()
  | some _ => refuse .trailingCharacters

/-- What a whole text holds. -/
def run {α : Type} (read : Reader α) (text : String) : Except Fault α := do
  let (result, rest) ← read text.toList
  let _ ← finish rest
  return result

end Reader

/-- The value that a text holds. -/
def parse (text : String) : Except Fault Json := (Reader.value Reader.maxLevels).run text

end Prebake.Json
