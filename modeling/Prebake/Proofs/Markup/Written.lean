import Mathlib.Data.List.Chain
import Prebake.Proofs.Markup.Escape
import Prebake.Proofs.Markup.Writer

/-!
# The markers in what is written

Between two pieces of markup slots and literal texts alternate. As long as no literal text holds two overlapping openings,
what is written for it has no opening at all, and a scan finds exactly the markers of the slots
(`markersIn_writtenSegments`).
-/

namespace Prebake

open Marker Markup

/-! ## Literal texts -/

/-- Two openings of which the second starts with the last character of the first: `__RUXY_SV__RUXY_SV_`. -/
def overlappingOpenings : List Char := opening ++ openingTail

/-- A text without overlapping openings is neutralized completely. -/
theorem quiet_neutralizeChars {s : List Char} (h : ¬overlappingOpenings <:+: s) : Quiet (neutralizeChars s) := by
  rintro ⟨before, rest, heq⟩
  rw [List.append_assoc] at heq
  obtain ⟨first, count, after, rfl, -, -⟩ := exists_tails_of_neutralizeChars_eq heq.symm
  have hcount : 2 * (count + 1) = 2 * count + 1 + 1 := by omega
  refine h ⟨first, tails (2 * count) ++ after, ?_⟩
  rw [hcount, tails_succ, tails_succ, overlappingOpenings, opening_eq]
  simp

/-- A word without underscores in front makes no opening. -/
theorem quiet_append_of_not_mem {word s : List Char} (hword : '_' ∉ word) (h : Quiet s) : Quiet (word ++ s) := by
  induction word with
  | nil => exact h
  | cons c word ih =>
    intro hin
    rcases List.infix_cons_iff.1 hin with hstart | hin
    · rw [opening_eq] at hstart
      exact hword ((List.cons_prefix_cons.1 hstart).1 ▸ List.mem_cons_self)
    · exact ih (fun hin => hword (List.mem_cons_of_mem _ hin)) hin

/-- What is replaced behind a marker makes no opening. -/
theorem quiet_neutralizeAfterMarker {escaped : String} (h : Quiet (neutralizeChars escaped.toList)) :
    Quiet (neutralizeAfterMarker escaped).toList := by
  rcases neutralizeAfterMarker_cases escaped with heq | ⟨c, rest, reference, hchars, heq, hreference⟩
  · rwa [heq]
  · rw [heq]
    rw [hchars] at h
    exact quiet_append_of_not_mem hreference h.of_cons

/-- Escaping brings no openings together. -/
theorem overlappingOpenings_infix_of_escapeChars {s : List Char} (h : overlappingOpenings <:+: escapeChars s) :
    overlappingOpenings <:+: s :=
  infix_of_escapeChars (List.all_eq_true.1 (by decide : (openingTail ++ openingTail).all isMarkerChar = true)) h

/-- A literal text without overlapping openings is written without an opening, whether after a marker or not. -/
theorem quiet_literalChars {text : String} (h : ¬overlappingOpenings <:+: text.toList) (afterMarker : Bool) :
    Quiet (literalChars afterMarker text) := by
  have hquiet : Quiet (neutralizeChars (escape text).toList) := by
    rw [toList_escape]
    exact quiet_neutralizeChars fun hin => h (overlappingOpenings_infix_of_escapeChars hin)
  cases afterMarker with
  | true => exact quiet_neutralizeAfterMarker hquiet
  | false =>
    rw [literalChars_false]
    exact hquiet

/-! ## Merged parts -/

namespace Part

/-- A literal part is written as literal text, and nothing that follows it comes right behind a marker. -/
theorem write_literal (afterMarker : Bool) (text : String) (rest : List Part) :
    write afterMarker (literal text :: rest) = literalChars afterMarker text ++ write false rest := rfl

/-- The text of a literal. -/
def literal? : Part → Option String
  | literal text => some text
  | _ => none

/-- The slot that a part is. -/
def slot? : Part → Option String
  | slot name => some name
  | _ => none

/-- Parts of which no two side by side are literals. -/
def Apart (parts : List Part) : Prop := parts.IsChain fun a b => a.literal? = none ∨ b.literal? = none

/-- What putting a part in front of merged parts can do: two literals become one, an empty literal is left out, or the part
stands before the others. -/
theorem consMerged_cases (part : Part) (parts : List Part) :
    (∃ s t rest, part = literal s ∧ parts = literal t :: rest ∧ consMerged part parts = literal (s ++ t) :: rest) ∨
      (part = literal "" ∧ consMerged part parts = parts) ∨
      (consMerged part parts = part :: parts ∧ ∀ next ∈ parts.head?, part.literal? = none ∨ next.literal? = none) := by
  cases part with
  | slot name => exact Or.inr (Or.inr ⟨by cases parts <;> rfl, fun _ _ => Or.inl rfl⟩)
  | markup html => exact Or.inr (Or.inr ⟨by cases parts <;> rfl, fun _ _ => Or.inl rfl⟩)
  | literal s =>
    by_cases hliteral : ∃ t rest, parts = literal t :: rest
    · obtain ⟨t, rest, rfl⟩ := hliteral
      exact Or.inl ⟨s, t, rest, rfl, rfl, rfl⟩
    · have hshape : consMerged (literal s) parts = if s = "" then parts else literal s :: parts := by
        rw [consMerged]
        rintro t rest rfl
        exact hliteral ⟨t, rest, rfl⟩
      by_cases hs : s = ""
      · subst hs
        exact Or.inr (Or.inl ⟨rfl, hshape⟩)
      · rw [if_neg hs] at hshape
        refine Or.inr (Or.inr ⟨hshape, fun next hnext => Or.inr ?_⟩)
        obtain ⟨rest, rfl⟩ := List.head?_eq_some_iff.1 hnext
        cases next with
        | literal t => exact absurd ⟨t, rest, rfl⟩ hliteral
        | slot name => rfl
        | markup html => rfl

/-- Merging keeps all slots. -/
theorem slots_consMerged (part : Part) (parts : List Part) :
    (consMerged part parts).filterMap slot? = (part :: parts).filterMap slot? := by
  rcases consMerged_cases part parts with ⟨s, t, rest, rfl, rfl, heq⟩ | ⟨rfl, heq⟩ | ⟨heq, -⟩
  · rw [heq]
    rfl
  · rw [heq]
    rfl
  · rw [heq]

/-- Merging keeps the slots. -/
theorem slots_merge (parts : List Part) : (merge parts).filterMap slot? = parts.filterMap slot? := by
  induction parts with
  | nil => rfl
  | cons part parts ih =>
    show (consMerged part (merge parts)).filterMap slot? = _
    rw [slots_consMerged, List.filterMap_cons, List.filterMap_cons, ih]

/-- Parts of which nothing is written have no slots. -/
theorem slots_eq_nil_of_write {parts : List Part} {afterMarker : Bool} (h : write afterMarker parts = []) :
    parts.filterMap slot? = [] := by
  induction parts generalizing afterMarker with
  | nil => rfl
  | cons part parts ih =>
    cases part with
    | slot name => exact absurd (List.append_eq_nil_iff.1 h).1 (isMarker_ofSlot name).ne_nil
    | literal text => exact ih (List.append_eq_nil_iff.1 h).2
    | markup html => exact ih (List.append_eq_nil_iff.1 h).2

/-- A part that is merged in front touches no literal part. -/
theorem apart_consMerged (part : Part) {parts : List Part} (h : Apart parts) : Apart (consMerged part parts) := by
  rcases consMerged_cases part parts with ⟨s, t, rest, rfl, rfl, heq⟩ | ⟨rfl, heq⟩ | ⟨heq, hnext⟩
  · rw [heq]
    have hnext : ∀ {next : Part}, (literal t).literal? = none ∨ next.literal? = none →
        (literal (s ++ t)).literal? = none ∨ next.literal? = none := fun hor =>
      Or.inr (hor.resolve_left (Option.some_ne_none t))
    exact h.imp_head hnext
  · rw [heq]
    exact h
  · rw [heq]
    exact List.isChain_cons.2 ⟨hnext, h⟩

/-- After merging no two literal parts touch. -/
theorem apart_merge (parts : List Part) : Apart (merge parts) := by
  induction parts with
  | nil => exact .nil
  | cons part parts ih => exact apart_consMerged part ih

/-- Where literals do not stand side by side and there is no markup, a slot follows a literal. -/
theorem Apart.exists_slot {text : String} {parts : List Part} (h : Apart (literal text :: parts))
    (hpure : ∀ html, markup html ∉ parts) (hne : parts ≠ []) : ∃ name rest, parts = slot name :: rest := by
  cases parts with
  | nil => exact absurd rfl hne
  | cons second rest =>
    cases second with
    | slot name => exact ⟨name, rest, rfl⟩
    | literal other => rcases (List.isChain_cons_cons.1 h).1 with h | h <;> cases h
    | markup html => exact absurd List.mem_cons_self (hpure html)

/-- What holds of all literal texts holds of those behind the first part. -/
theorem forall_literal_of_cons {P : String → Prop} {part : Part} {parts : List Part}
    (h : ∀ run ∈ (part :: parts).filterMap literal?, P run) : ∀ run ∈ parts.filterMap literal?, P run :=
  fun run hrun => h run ((List.sublist_cons_self part parts).filterMap _ |>.subset hrun)

/-- Merging adds no markup. -/
theorem markup_mem_of_mem_merge {html : String} {parts : List Part} (h : markup html ∈ merge parts) :
    markup html ∈ parts := by
  induction parts with
  | nil => exact h
  | cons part parts ih =>
    change markup html ∈ consMerged part (merge parts) at h
    rcases consMerged_cases part (merge parts) with ⟨s, t, rest, rfl, hmerged, heq⟩ | ⟨rfl, heq⟩ | ⟨heq, -⟩
    · rw [heq, List.mem_cons] at h
      refine List.mem_cons_of_mem _ (ih (hmerged ▸ List.mem_cons_of_mem _ (h.resolve_left ?_)))
      exact nofun
    · exact List.mem_cons_of_mem _ (ih (heq ▸ h))
    · rw [heq, List.mem_cons] at h
      exact List.mem_cons.2 (h.imp id ih)

/-- A scan of merged parts without markup finds the markers of their slots, if no literal holds overlapping openings. -/
theorem markersIn_write {parts : List Part} (hapart : Apart parts) (hpure : ∀ html, markup html ∉ parts)
    (hruns : ∀ run ∈ parts.filterMap literal?, ¬overlappingOpenings <:+: run.toList) (afterMarker : Bool) :
    markersIn (write afterMarker parts) = (parts.filterMap slot?).map ofSlot := by
  induction parts generalizing afterMarker with
  | nil => exact markersIn_nil
  | cons part parts ih =>
    have hpure' : ∀ html, markup html ∉ parts := fun html hin => hpure html (List.mem_cons_of_mem _ hin)
    have hrest := ih hapart.tail hpure' (forall_literal_of_cons hruns)
    cases part with
    | slot name =>
      rw [write, markersIn_append_of_isMarker (isMarker_ofSlot name), String.ofList_toList, hrest]
      rfl
    | markup html => exact absurd List.mem_cons_self (hpure html)
    | literal text =>
      have hquiet := quiet_literalChars (hruns text List.mem_cons_self) afterMarker
      by_cases hne : parts = []
      · subst hne
        rw [write_literal, write, List.append_nil]
        exact hquiet.markersIn_eq_nil
      · obtain ⟨name, rest, rfl⟩ := hapart.exists_slot hpure' hne
        have hslot := hrest false
        rw [write, markersIn_append_of_isMarker (isMarker_ofSlot name)] at hslot
        rw [write_literal, write, ← List.append_assoc, markersIn_quiet_append_marker hquiet (isMarker_ofSlot name), hslot]
        rfl

end Part

/-! ## Segments -/

/-- The longest runs of literal text in segments that are written between two pieces of markup. -/
def literalRuns (segments : List Segment) : List String :=
  (Part.merge (segments.map Part.ofSegment)).filterMap Part.literal?

/-- Between two pieces of markup there is none. -/
theorem markup_not_mem_merge (segments : List Segment) (html : String) :
    Part.markup html ∉ Part.merge (segments.map Part.ofSegment) := by
  intro hin
  obtain ⟨segment, -, heq⟩ := List.mem_map.1 (Part.markup_mem_of_mem_merge hin)
  cases segment <;> cases heq

theorem slots_map_ofSegment (segments : List Segment) :
    (segments.map Part.ofSegment).filterMap Part.slot? = slotsIn segments := by
  rw [List.filterMap_map]
  refine List.filterMap_congr fun segment _ => ?_
  cases segment <;> rfl

/-- Segments for which nothing is written have no slots. -/
theorem slotsIn_eq_nil {segments : List Segment} (h : writtenSegments segments = []) : slotsIn segments = [] := by
  rw [← slots_map_ofSegment, ← Part.slots_merge]
  exact Part.slots_eq_nil_of_write h

/-- A scan of what is written for segments finds the markers of their slots, each where it stands. -/
theorem markersIn_writtenSegments {segments : List Segment}
    (hruns : ∀ run ∈ literalRuns segments, ¬overlappingOpenings <:+: run.toList) :
    markersIn (writtenSegments segments) = (slotsIn segments).map ofSlot := by
  rw [writtenSegments, Part.markersIn_write (Part.apart_merge _) (markup_not_mem_merge segments) hruns, Part.slots_merge,
    slots_map_ofSegment]

/-! ## Attributes -/

/-- The attribute of a property has no opening in its name if the property has none. -/
theorem quiet_attributeName {property : String} (h : Quiet property.toList) : Quiet (attributeName property).toList := by
  have hrenamed : ∀ entry ∈ renamedAttributes, '_' ∉ entry.2.toList := by decide
  unfold attributeName
  cases hlookup : renamedAttributes.lookup property with
  | none => exact h
  | some name =>
    intro hin
    obtain ⟨first, rest, hentries, -⟩ := List.lookup_eq_some_iff.1 hlookup
    refine hrenamed (property, name) ?_ (hin.subset (opening_eq ▸ List.mem_cons_self))
    rw [hentries]
    exact List.mem_append_right _ List.mem_cons_self

namespace Attribute

/-- The longest runs of literal text in an attribute. -/
def literalRuns : Attribute → List String
  | quoted segments => Prebake.literalRuns segments
  | _ => []

variable {attr : Attribute} {name : String}

/-- No marker that starts before an attribute reaches into it. -/
theorem bounded_written (attr : Attribute) (name : String) : Bounded (attr.written name) := by
  cases attr with
  | omitted => exact .nil
  | nameOnly => exact .cons rfl _
  | quoted segments => exact .cons rfl _

/-- The markers in the name of an attribute, if the attribute is written. -/
def nameMarkers (name : String) : Attribute → List String
  | omitted => []
  | nameOnly | quoted _ => scan name

/-- A name without an opening brings no markers. -/
theorem nameMarkers_eq_nil (hname : Quiet name.toList) : attr.nameMarkers name = [] := by
  cases attr with
  | omitted => rfl
  | nameOnly => exact hname.markersIn_eq_nil
  | quoted segments => exact hname.markersIn_eq_nil

/-- A scan of what is written for an attribute finds the markers in its name, then those of its slots. -/
theorem markersIn_written (hruns : ∀ run ∈ attr.literalRuns, ¬overlappingOpenings <:+: run.toList) :
    markersIn (attr.written name) = attr.nameMarkers name ++ attr.slots.map ofSlot := by
  have hstart : markersIn (' ' :: name.toList) = scan name := markersIn_cons_of_ne (by decide) _
  cases attr with
  | omitted => exact markersIn_nil
  | nameOnly => exact hstart.trans (List.append_nil _).symm
  | quoted segments =>
    have hshape : (quoted segments).written name =
        ' ' :: name.toList ++ '=' :: ('"' :: (writtenSegments segments ++ ['"'])) := by
      simp [written]
    rw [hshape, markersIn_append_cons (by decide), hstart, markersIn_cons_of_ne (by decide),
      markersIn_append_cons (by decide), markersIn_nil, List.append_nil, markersIn_writtenSegments hruns]
    rfl

end Attribute

end Prebake
