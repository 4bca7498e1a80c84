import Prebake.Proofs.Markup.Written

/-!
# What markup shows

A reader of markup sees a character where a character reference stands. A piece of markup spells a text if it is decoded to it
whatever follows (`Spells`), so pieces side by side spell their texts side by side. Escaped literal text spells itself, and
neutralizing changes only how it is spelled. So what is written for values, as content or as an attribute, shows exactly their
literal texts with the markers of their slots in between (`decode_html_eq_shown`).
-/

namespace Prebake

open Marker

namespace Markup

/-! ## Decoding -/

/-- A text in which the character references that are written stand replaced, once and from left to right. -/
def decode : List Char → List Char
  | '&' :: 'a' :: 'm' :: 'p' :: ';' :: rest => '&' :: decode rest
  | '&' :: 'l' :: 't' :: ';' :: rest => '<' :: decode rest
  | '&' :: 'g' :: 't' :: ';' :: rest => '>' :: decode rest
  | '&' :: 'q' :: 'u' :: 'o' :: 't' :: ';' :: rest => '"' :: decode rest
  | '&' :: '#' :: '3' :: '9' :: ';' :: rest => '\'' :: decode rest
  | '&' :: '#' :: '9' :: '5' :: ';' :: rest => '_' :: decode rest
  | '&' :: '#' :: '8' :: '2' :: ';' :: rest => 'R' :: decode rest
  | c :: rest => c :: decode rest
  | [] => []

theorem decode_cons {c : Char} (h : c ≠ '&') (rest : List Char) : decode (c :: rest) = c :: decode rest := by
  rw [decode]
  all_goals exact fun _ heq _ => h heq

/-- A piece of markup is decoded to a text, whatever follows it. -/
def Spells (written text : List Char) : Prop := ∀ rest, decode (written ++ rest) = text ++ decode rest

namespace Spells

variable {first second s t : List Char}

theorem nil : Spells [] [] := fun _ => rfl

theorem append (hs : Spells first s) (ht : Spells second t) : Spells (first ++ second) (s ++ t) := by
  intro rest
  rw [List.append_assoc, hs, ht, List.append_assoc]

theorem singleton {c : Char} (h : c ≠ '&') : Spells [c] [c] := decode_cons h

theorem cons {c : Char} (h : c ≠ '&') (hs : Spells first s) : Spells (c :: first) (c :: s) := (singleton h).append hs

/-- A text without an ampersand spells itself. -/
theorem self (h : '&' ∉ s) : Spells s s := by
  induction s with
  | nil => exact .nil
  | cons c s ih =>
    rw [List.mem_cons, not_or] at h
    exact .cons (Ne.symm h.1) (ih h.2)

/-- What is decoded alike may stand for the same text. -/
theorem congr (h : ∀ rest, decode (first ++ rest) = decode (second ++ rest)) (hs : Spells second s) : Spells first s :=
  fun rest => (h rest).trans (hs rest)

/-- What spells a text is decoded to it. -/
theorem decode_eq (h : Spells first s) : decode first = s := by
  have hall := h []
  rwa [List.append_nil, show decode [] = [] from rfl, List.append_nil] at hall

end Spells

/-! ## Literal text -/

/-- An escaped character spells the character, whether it is written as a reference or as itself. -/
theorem spells_escapeChar (c : Char) : Spells (escapeChar c) [c] := by
  unfold escapeChar
  split
  · exact fun _ => rfl
  · exact fun _ => rfl
  · exact fun _ => rfl
  · exact fun _ => rfl
  · exact fun _ => rfl
  · rename_i hamp _ _ _ _
    exact Spells.singleton hamp

/-- An escaped character is kept when it is neutralized, unless an opening starts with it. -/
theorem unopened_escapeChar {c : Char} {s : List Char} (h : ¬opening <+: c :: s) :
    Unopened (escapeChar c) (escapeChars s) := by
  rcases escapeChar_cases c with hc | ⟨-, -, hnot⟩
  · have hescaped : ¬opening <+: escapeChars (c :: s) := fun hopens => h (opening_prefix_escapeChars_iff.1 hopens)
    rw [escapeChars_cons, hc] at hescaped
    rw [hc]
    exact Unopened.singleton hescaped
  · exact Unopened.of_not_mem hnot _

/-- Escaped and neutralized, a text still spells itself. -/
theorem spells_neutralizeChars (s : List Char) : Spells (neutralizeChars (escapeChars s)) s := by
  induction s using neutralize_induction with
  | hnil =>
    rw [show escapeChars [] = [] from rfl, neutralizeChars_nil]
    exact .nil
  | hopening s ih =>
    rw [escapeChars_append, escapeChars_of_isMarkerChar isMarkerChar_opening, neutralizeChars_opening]
    exact Spells.append (fun _ => rfl) ih
  | hchar c s hc ih =>
    rw [escapeChars_cons, neutralizeChars_append (unopened_escapeChar hc)]
    exact (spells_escapeChar c).append ih

/-- Whether a marker stands before it or not, a literal text is written as something that spells it. -/
theorem spells_literalChars (text : String) (afterMarker : Bool) : Spells (literalChars afterMarker text) text.toList := by
  have hspells := spells_neutralizeChars text.toList
  rw [← toList_escape] at hspells
  cases afterMarker with
  | false =>
    rw [literalChars_false]
    exact hspells
  | true =>
    rw [literalChars_true]
    rcases neutralizeAfterMarker_eq (escape text) with ⟨-, heq⟩ | ⟨-, c, rest, reference, hchars, heq, hreplaced⟩
    · rwa [heq]
    · rw [heq]
      rw [hchars] at hspells
      rcases hreplaced with ⟨rfl, rfl⟩ | ⟨rfl, rfl⟩
      · exact .congr (fun _ => rfl) hspells
      · exact .congr (fun _ => rfl) hspells

/-- A marker spells itself. -/
theorem spells_ofSlot (slot : String) : Spells (ofSlot slot).toList (ofSlot slot).toList :=
  .self fun hin => absurd ((isMarker_ofSlot slot).isMarkerChar '&' hin) (by decide)

end Markup

open Markup

/-! ## Parts and segments -/

/-- What a part of markup shows. -/
def Part.shown : Part → List Char
  | literal text => text.toList
  | slot name => (ofSlot name).toList
  | markup html => decode html.toList

/-- What a segment shows: its text, or the marker of its slot. -/
def Segment.shown : Segment → List Char
  | text content => content.toList
  | slot name => (ofSlot name).toList

namespace Part

/-- Merging keeps what parts show. -/
theorem shown_merge (parts : List Part) : (merge parts).flatMap shown = parts.flatMap shown := by
  induction parts with
  | nil => rfl
  | cons part parts ih =>
    rw [List.flatMap_cons, ← ih]
    show (consMerged part (merge parts)).flatMap shown = _
    rcases consMerged_cases part (merge parts) with ⟨s, t, rest, rfl, hmerged, heq⟩ | ⟨rfl, heq⟩ | ⟨heq, -⟩
    · rw [heq, hmerged]
      simp [shown]
    · rw [heq]
      rfl
    · rw [heq, List.flatMap_cons]

/-- Literal parts and markers spell their texts in order, as long as no finished markup is among them. -/
theorem spells_write {parts : List Part} (hpure : ∀ html, markup html ∉ parts) (afterMarker : Bool) :
    Spells (write afterMarker parts) (parts.flatMap shown) := by
  induction parts generalizing afterMarker with
  | nil => exact .nil
  | cons part parts ih =>
    have hrest := ih fun html hin => hpure html (List.mem_cons_of_mem _ hin)
    cases part with
    | literal text => exact (spells_literalChars text afterMarker).append (hrest false)
    | slot name => exact (spells_ofSlot name).append (hrest true)
    | markup html => exact absurd List.mem_cons_self (hpure html)

end Part

/-- A segment shows as a part what it shows by itself. -/
theorem shown_map_ofSegment (segments : List Segment) :
    (segments.map Part.ofSegment).flatMap Part.shown = segments.flatMap Segment.shown := by
  rw [List.flatMap_map]
  refine List.flatMap_congr fun segment _ => ?_
  cases segment <;> rfl

/-- What is written for segments shows their texts and the markers of their slots, each where it stands. -/
theorem decode_writtenSegments (segments : List Segment) :
    decode (writtenSegments segments) = segments.flatMap Segment.shown := by
  rw [← shown_map_ofSegment, ← Part.shown_merge]
  exact (Part.spells_write (markup_not_mem_merge segments) false).decode_eq

/-! ## Values -/

namespace Value

mutual

/-- What a value shows as content: numbers and texts with their slots, and the items of an array one after the other. -/
def shownAsContent : Value → List Char
  | undefined | null | bool _ | object _ => []
  | number x => (writeNumber x).toList
  | string s => s.toList
  | server segments => segments.flatMap Segment.shown
  | array items => itemsShown items

/-- The text that items show as content, one behind the other. -/
def itemsShown : List Value → List Char
  | [] => []
  | item :: items => shownAsContent item ++ itemsShown items

end

mutual

/-- What a value shows as an attribute: its text with its slots, where the items of an array have commas between them. -/
def shownAsAttribute : Value → List Char
  | server segments => segments.flatMap Segment.shown
  | array items => [','].intercalate (itemTextsShown items)
  | value => value.scalarText.toList

/-- The texts that items show in an attribute. -/
def itemTextsShown : List Value → List (List Char)
  | [] => []
  | item :: items => (if item.isNullish then [] else shownAsAttribute item) :: itemTextsShown items

end

/-- Whether a value is written between quotes as an attribute of any name. -/
def isQuoted : Value → Bool
  | number _ | string _ | server _ | array _ => true
  | _ => false

mutual

/-- The segments of content show what the value shows, if there is no object in it. -/
theorem shown_content : ∀ v : Value, v.content.obstacle? = none →
    v.content.segments.flatMap Segment.shown = v.shownAsContent
  | undefined, _ | null, _ | bool _, _ => rfl
  | object _, h => nomatch h
  | number _, _ | string _, _ => List.append_nil _
  | server _, _ => rfl
  | array items, h => shown_itemContents items h

/-- Items that can be written as content show their texts one behind the other. -/
theorem shown_itemContents : ∀ items : List Value, (itemContents items).obstacle? = none →
    (itemContents items).segments.flatMap Segment.shown = itemsShown items
  | [], _ => rfl
  | item :: items, h => by
    rw [itemContents] at h ⊢
    dsimp only at h ⊢
    split at h
    · cases h
    · rename_i hitem
      dsimp only
      rw [List.flatMap_append, shown_content item hitem, shown_itemContents items h, itemsShown]

end

mutual

/-- The segments of a value show what the value shows as an attribute. -/
theorem shown_toSegments : ∀ v : Value, v.toSegments.flatMap Segment.shown = v.shownAsAttribute
  | undefined | null | bool _ | number _ | string _ | object _ => List.append_nil _
  | server _ => rfl
  | array items => shown_itemSegments items

/-- Items show their texts with commas in between. -/
theorem shown_itemSegments : ∀ items : List Value,
    (itemSegments items).flatMap Segment.shown = [','].intercalate (itemTextsShown items)
  | [] => rfl
  | item :: items => by
    have hitem : (if item.isNullish then [] else item.toSegments).flatMap Segment.shown =
        if item.isNullish then [] else item.shownAsAttribute := by
      split
      · rfl
      · exact shown_toSegments item
    rw [itemSegments, List.flatMap_append, hitem, itemTextsShown]
    cases items with
    | nil => simp [itemTextsShown]
    | cons second items =>
      rw [List.isEmpty_cons, if_neg Bool.false_ne_true, List.flatMap_cons, shown_itemSegments (second :: items),
        itemTextsShown, List.intercalate_cons_cons, ← List.append_assoc]
      rfl

end

/-- A value that is written with quotation marks is written as its segments. -/
theorem toAttribute_of_isQuoted {v : Value} (h : v.isQuoted = true) (property : String) :
    v.toAttribute property = .ok (.quoted v.toSegments) := by
  cases v with
  | undefined | null | bool _ | object _ => cases h
  | number _ | string _ | server _ | array _ => rfl

end Value

/-- Nothing that a reader sees is lost. Decoded once, what is written for values as content is their texts and the markers of
their slots, one after the other and the items of arrays in order; and what is written between the quotes of an attribute is
the text of the value with the markers of its slots. -/
theorem decode_html_eq_shown :
    (∀ values : List Value, (∀ v ∈ values, v.content.obstacle? = none) →
      decode (Writer.empty.texts values).html.toList = values.flatMap Value.shownAsContent) ∧
    ∀ (w : Writer) (property : String) (v : Value), v.isQuoted = true → ∃ (after : Writer) (quoted : List Char),
      w.property property v = .ok after ∧
      after.html.toList = w.html.toList ++ ' ' :: ((attributeName property).toList ++ "=\"".toList) ++ (quoted ++ ['"']) ∧
      decode quoted = v.shownAsAttribute := by
  constructor
  · intro values hvalues
    rw [Writer.toList_html, Writer.written_texts, decode_writtenSegments, contentSegments, List.flatMap_assoc]
    exact List.flatMap_congr fun v hv => Value.shown_content v (hvalues v hv)
  · intro w property v hv
    refine ⟨w.pushAttribute (attributeName property) (.quoted v.toSegments), writtenSegments v.toSegments, ?_, ?_, ?_⟩
    · rw [Writer.property, v.toAttribute_of_isQuoted hv]
      rfl
    · rw [Writer.toList_html, Writer.toList_html, Writer.written_pushAttribute, List.append_assoc]
      rfl
    · rw [decode_writtenSegments, Value.shown_toSegments]

/-- Text that looks like a marker after a marker, in an array beside other text, and an attribute with an ampersand. -/
theorem decode_html_afterMarker :
    (∀ v ∈ [Value.ofSlot "A", .array [.string "RUXY_SV_B__ <", .null, .string "&amp;"]], v.content.obstacle? = none) ∧
    decode (Writer.empty.texts [Value.ofSlot "A", .array [.string "RUXY_SV_B__ <", .null, .string "&amp;"]]).html.toList =
      "__RUXY_SV_A__RUXY_SV_B__ <&amp;".toList ∧
    (Value.array [.string "a&b", .null, .ofSlot "A"]).isQuoted = true ∧
    ∃ (after : Writer) (quoted : List Char),
      Writer.empty.property "title" (.array [.string "a&b", .null, .ofSlot "A"]) = .ok after ∧
      after.html.toList = " title=\"".toList ++ (quoted ++ ['"']) ∧ decode quoted = "a&b,,__RUXY_SV_A__".toList := by
  have hshown : ∀ v ∈ [Value.ofSlot "A", .array [.string "RUXY_SV_B__ <", .null, .string "&amp;"]],
      v.content.obstacle? = none := by simp [Value.ofSlot, Value.content, Value.itemContents]
  refine ⟨hshown, decode_html_eq_shown.1 _ hshown, rfl, ?_⟩
  obtain ⟨after, quoted, hafter, hhtml, hquoted⟩ :=
    decode_html_eq_shown.2 Writer.empty "title" (.array [.string "a&b", .null, .ofSlot "A"]) rfl
  exact ⟨after, quoted, hafter, hhtml, hquoted⟩

end Prebake
