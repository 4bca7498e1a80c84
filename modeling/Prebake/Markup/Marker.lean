import Prebake.Digest.Sha256
import Prebake.NameMap

/-!
# Markers of slots

Where markup holds a slot, a marker is written that the server replaces by the text of the slot. A marker holds only
letters, digits and underscores, so it stands for itself in text and in attribute values. Literal text is neutralized:
one character of anything that looks like the opening of a marker is written as a character reference.
-/

namespace Prebake.Marker

/-- The characters that every marker opens with. -/
def opening : List Char := "__RUXY_SV_".toList

/-- The characters that every marker closes with. -/
def closing : List Char := "__".toList

/-- ASCII letters and digits, the characters of slots that are written into their markers. -/
def isPlain (c : Char) : Bool := c.isAlphanum

/-- A digit of a digest as it stands in a marker. -/
def isDigestDigit (c : Char) : Bool := c.isDigit || ('a' ≤ c && c ≤ 'f')

/-- The number of digits of a digest in a marker. -/
def digestLength : Nat := 16

/-- The marker of a slot: the slot itself where it is made of plain characters, otherwise a digest of it. -/
def ofSlot (slot : String) : String :=
  let chars := slot.toList
  String.ofList (opening ++ (if !chars.isEmpty && chars.all isPlain then chars
    else 'x' :: '_' :: Sha256.hexDigest slot (digestLength / 2)) ++ closing)

/-- The length of the plain characters at the start of a text, if the closing of a marker follows them. -/
def plainLength? (s : List Char) : Option Nat :=
  let plain := s.takeWhile isPlain
  if !plain.isEmpty && closing.isPrefixOf (s.drop plain.length) then some plain.length else none

/-- The length of a written digest at the start of a text, if the closing of a marker follows it. -/
def digestLength? (s : List Char) : Option Nat :=
  let digits := (s.drop 2).take digestLength
  if ['x', '_'].isPrefixOf s && digits.length == digestLength && digits.all isDigestDigit
      && closing.isPrefixOf (s.drop (2 + digestLength)) then some (2 + digestLength)
  else none

/-- The length of the marker at the start of a text. -/
def lengthAt? (s : List Char) : Option Nat :=
  if opening.isPrefixOf s then
    let rest := s.drop opening.length
    ((plainLength? rest).or (digestLength? rest)).map fun n => opening.length + n + closing.length
  else none

theorem length_drop_lt_of_isPrefixOf {start s : List Char} (h : start.isPrefixOf s = true) (hs : start ≠ [])
    (n : Nat) (hn : start.length ≤ n) : (s.drop n).length < s.length := by
  obtain ⟨tail, rfl⟩ := List.isPrefixOf_iff_prefix.1 h
  have : 0 < start.length := List.length_pos_iff.2 hs
  simp only [List.length_drop, List.length_append]
  omega

/-- What follows a marker is shorter than the text from the marker on. -/
theorem length_drop_lengthAt? {s : List Char} {n : Nat} (h : lengthAt? s = some n) :
    (s.drop n).length < s.length := by
  unfold lengthAt? at h
  split at h
  · rename_i opens
    obtain ⟨m, -, rfl⟩ := Option.map_eq_some_iff.1 h
    exact length_drop_lt_of_isPrefixOf opens (by decide) _ (by omega)
  · cases h

/-- A piece of markup: a marker, or a character that belongs to none. -/
inductive Piece where
  | char (c : Char)
  | marker (text : String)
deriving DecidableEq, Repr

/-- A text taken apart into markers and other characters, from left to right. -/
def pieces (s : List Char) : List Piece :=
  match _ : lengthAt? s with
  | some n => .marker (String.ofList (s.take n)) :: pieces (s.drop n)
  | none =>
    match s with
    | [] => []
    | c :: rest => .char c :: pieces rest
termination_by s.length
decreasing_by
  · exact length_drop_lengthAt? ‹_›
  · simp

/-- The markers in a text, in order and with repetitions. -/
def scan (text : String) : List String :=
  (pieces text.toList).filterMap fun piece => match piece with
    | .marker m => some m
    | .char _ => none

/-- The opening of a marker with a character reference for its first character. -/
def neutralizedOpening : List Char := "&#95;_RUXY_SV_".toList

/-- A text in which every opening of a marker has been neutralized, from left to right. -/
def neutralizeChars (s : List Char) : List Char :=
  if opening.isPrefixOf s then neutralizedOpening ++ neutralizeChars (s.drop opening.length)
  else
    match s with
    | [] => []
    | c :: rest => c :: neutralizeChars rest
termination_by s.length
decreasing_by
  · exact length_drop_lt_of_isPrefixOf ‹opening.isPrefixOf s = true› (by decide) _ (Nat.le_refl _)
  · simp

/-- Escaped literal text without openings of markers. -/
def neutralize (escaped : String) : String := String.ofList (neutralizeChars escaped.toList)

/-- Escaped literal text that directly follows a marker: its start must not make up an opening together with the end
of the marker. -/
def neutralizeAfterMarker (escaped : String) : String :=
  let chars := neutralizeChars escaped.toList
  String.ofList (match chars with
    | '_' :: rest => "&#95;".toList ++ rest
    | 'R' :: rest => if "UXY_SV_".toList.isPrefixOf rest then "&#82;".toList ++ rest else chars
    | _ => chars)

end Prebake.Marker

namespace Prebake

/-- The slots of a piece of markup by their markers. -/
abbrev Manifest : Type := NameMap String

namespace Manifest

/-- The manifest without slots. -/
def empty : Manifest := NameMap.empty

/-- The manifest with one more slot. -/
def record (manifest : Manifest) (slot : String) : Manifest := manifest.insert (Marker.ofSlot slot) slot

/-- The manifest of some slots. -/
def ofSlots (slots : List String) : Manifest := slots.foldl record empty

/-- The markup with each marker replaced by the text of its slot, where the manifest has the slot and the slot has a
text. -/
def substitute (manifest : Manifest) (textOf : String → Option String) (html : String) : String :=
  String.join ((Marker.pieces html.toList).map fun piece => match piece with
    | .char c => String.singleton c
    | .marker m => ((manifest.find? m).bind textOf).getD m)

/-- The first marker in the markup that the manifest does not list. -/
def firstStray? (manifest : Manifest) (html : String) : Option String :=
  (Marker.scan html).find? fun m => !manifest.contains m

end Manifest

end Prebake
