import Prebake.Proofs.Markup.Written

/-!
# Openings in what is written

The opening of a marker should stand nowhere in markup but where the marker of a slot starts. Literal text without an opening
brings none along, and right after a marker its start is replaced if it could make up an opening with the end of the marker.
But nothing looks at its end: a text before a slot can make up an opening with the first character of the slot's marker, be
it from its own characters alone or with the end of another marker before it (`Completes`). These are the only openings that
start no marker (`openings_start_markers_iff`), and there are such (`bareOpening_starts_no_marker`).
-/

namespace Prebake

open Marker Markup

namespace Marker

/-! ## The end of a literal text -/

/-- The end of the marker that stands before a text, if one does. -/
def closingBefore (afterMarker : Bool) : List Char := if afterMarker then closing else []

theorem closingBefore_true : closingBefore true = closing := rfl

/-- A text makes up an opening with the first character of a marker after it: it ends in all other characters of an opening,
but right after a marker it is not just these; or there it is what is missing between the two markers. -/
def Completes (afterMarker : Bool) (text : List Char) : Prop :=
  (opening <:+ text ++ ['_'] ∧ ¬(afterMarker = true ∧ text ++ ['_'] = opening)) ∨
    (afterMarker = true ∧ closing ++ (text ++ ['_']) = opening)

instance (afterMarker : Bool) (text : List Char) : Decidable (Completes afterMarker text) :=
  inferInstanceAs (Decidable ((opening <:+ text ++ ['_'] ∧ ¬(afterMarker = true ∧ text ++ ['_'] = opening)) ∨
    (afterMarker = true ∧ closing ++ (text ++ ['_']) = opening)))

variable {afterMarker : Bool} {text : String} {s : List Char}

/-- An underscore that follows an escaped text could as well be escaped with it. -/
theorem escapeChars_underscore (s : List Char) : escapeChars s ++ ['_'] = escapeChars (s ++ ['_']) :=
  (escapeChars_append s ['_']).symm

/-- Escaping does not change whether a text completes an opening. -/
theorem completes_escapeChars_iff : Completes afterMarker (escapeChars s) ↔ Completes afterMarker s := by
  have hclosing : closing ++ escapeChars (s ++ ['_']) = escapeChars (closing ++ (s ++ ['_'])) := by
    rw [escapeChars_append closing, escapeChars_of_isMarkerChar isMarkerChar_closing]
  unfold Completes
  rw [escapeChars_underscore, hclosing, opening_suffix_escapeChars_iff, escapeChars_eq_iff isMarkerChar_opening,
    escapeChars_eq_iff isMarkerChar_opening]

/-- In a text without an opening there is nothing to neutralize. -/
theorem neutralizeChars_of_quiet (h : Quiet s) : neutralizeChars s = s := by
  have hunopened : Unopened s [] := by
    rintro part hpart - hopens
    rw [List.append_nil] at hopens
    exact h (hopens.isInfix.trans hpart.isInfix)
  have hkept := neutralizeChars_append hunopened
  rwa [List.append_nil, neutralizeChars_nil, List.append_nil] at hkept

/-- A word ends a text that is put together from two parts if it ends the second one, or if the second one ends it and what
comes before that in the word ends the first one. -/
theorem suffix_append_cases {word first second : List Char} (h : word <:+ first ++ second) :
    word <:+ second ∨ ∃ part, part ≠ [] ∧ part <:+ first ∧ word = part ++ second := by
  obtain ⟨before, heq⟩ := h
  rcases List.append_eq_append_iff.1 heq with ⟨part, hfirst, hword⟩ | ⟨rest, -, hsecond⟩
  · cases part with
    | nil => exact Or.inl (hword ▸ List.suffix_refl _)
    | cons c part => exact Or.inr ⟨c :: part, List.cons_ne_nil c part, ⟨before, hfirst.symm⟩, hword⟩
  · exact Or.inl ⟨rest, hsecond.symm⟩

/-- Without a replaced character, a text completes an opening if the opening is there. -/
theorem completes_of_not_continues (h : ¬Continues s) :
    opening <:+ closing ++ (s ++ ['_']) ↔ Completes true s := by
  have hwhole : s ++ ['_'] ≠ opening := by
    intro heq
    have hs : s = "__RUXY_SV".toList := List.append_cancel_right (heq.trans (by decide))
    exact h (Or.inl ⟨"_RUXY_SV".toList, hs ▸ rfl⟩)
  have htail : s ++ ['_'] ≠ openingTail := by
    intro heq
    have hs : s = "_RUXY_SV".toList := List.append_cancel_right (heq.trans (by decide))
    exact h (Or.inl ⟨"RUXY_SV".toList, hs ▸ rfl⟩)
  constructor
  · intro hopening
    rcases suffix_append_cases hopening with hin | ⟨part, hne, hpart, heq⟩
    · exact Or.inl ⟨hin, fun hand => hwhole hand.2⟩
    · rw [closing_eq] at hpart
      rcases List.suffix_cons_iff.1 hpart with rfl | hpart
      · exact Or.inr ⟨rfl, heq.symm⟩
      · rcases List.suffix_cons_iff.1 hpart with rfl | hpart
        · exact absurd (List.cons.inj (heq.symm.trans opening_eq)).2 htail
        · exact absurd (List.suffix_nil.1 hpart) hne
  · rintro (⟨hin, -⟩ | ⟨-, heq⟩)
    · exact hin.trans (List.suffix_append _ _)
    · rw [heq]

/-- With its first character replaced, a text completes an opening only if its other characters do: no opening goes on after
the end of a reference. -/
theorem completes_of_continues {c : Char} {rest reference : List Char} (h : Continues (c :: rest))
    (hreference : reference.getLast? = some ';') :
    opening <:+ closing ++ (reference ++ rest ++ ['_']) ↔ Completes true (c :: rest) := by
  have hcompletes : Completes true (c :: rest) ↔ opening <:+ rest ++ ['_'] := by
    constructor
    · rintro (⟨hin, hwhole⟩ | ⟨-, heq⟩)
      · rcases List.suffix_cons_iff.1 hin with heq | hin
        · exact absurd ⟨rfl, heq.symm⟩ hwhole
        · exact hin
      · -- the text would be `RUXY_SV`, whose first character is not replaced
        have hs : c :: rest = "RUXY_SV".toList :=
          List.append_cancel_right (List.append_cancel_left (heq.trans (by decide)))
        rw [hs] at h
        exact absurd h (by decide)
    · intro hin
      refine Or.inl ⟨hin.trans (List.suffix_cons c _), fun hand => ?_⟩
      have hlong := hin.length_le
      have hlength := congrArg List.length hand.2
      simp only [List.cons_append, List.length_cons] at hlength
      omega
  rw [hcompletes, ← List.append_assoc, ← List.append_assoc, List.append_assoc]
  constructor
  · intro hopening
    rcases suffix_append_cases hopening with hin | ⟨part, hpart, ⟨before, heq⟩, hword⟩
    · exact hin
    · -- otherwise the opening would reach into the reference, whose last character it does not hold
      have hlast : part.getLast? = some ';' := by
        rw [← List.getLast?_append_of_ne_nil before hpart, heq, List.getLast?_append, hreference]
        rfl
      exact absurd (hword ▸ List.mem_append_left _ (List.mem_of_getLast? hlast)) (by decide : ';' ∉ opening)
  · exact fun hin => hin.trans (List.suffix_append _ _)

/-- Where a literal text without an opening stands before a marker, an opening ends with the first character of the marker
exactly if the text completes one. -/
theorem opening_suffix_literalChars_iff (h : Quiet text.toList) :
    opening <:+ closingBefore afterMarker ++ (literalChars afterMarker text ++ ['_']) ↔
      Completes afterMarker text.toList := by
  have hquiet : Quiet (escapeChars text.toList) := fun hin =>
    h (infix_of_escapeChars (fun c hc => isMarkerChar_opening c (List.mem_cons_of_mem _ hc)) hin)
  have hchars : neutralizeChars (escape text).toList = escapeChars text.toList := by
    rw [toList_escape, neutralizeChars_of_quiet hquiet]
  rw [← completes_escapeChars_iff]
  cases afterMarker with
  | false =>
    rw [literalChars_false, hchars]
    simp [closingBefore, Completes]
  | true =>
    rw [closingBefore_true, literalChars_true]
    rcases neutralizeAfterMarker_eq (escape text) with
      ⟨hnone, heq⟩ | ⟨hsome, c, rest, reference, hcons, heq, hreplaced⟩
    · rw [hchars] at hnone heq
      rw [heq]
      exact completes_of_not_continues hnone
    · rw [hchars] at hsome hcons
      rw [hcons] at hsome
      rw [heq, hcons]
      rcases hreplaced with ⟨-, rfl⟩ | ⟨-, rfl⟩
      · exact completes_of_continues hsome rfl
      · exact completes_of_continues hsome rfl

/-- No opening stands in a literal text without one, nor where the text meets the end of a marker before it. -/
theorem quiet_closing_literalChars (h : Quiet text.toList) :
    Quiet (closingBefore afterMarker ++ literalChars afterMarker text) := by
  have hliteral : Quiet (literalChars afterMarker text) :=
    quiet_literalChars (fun hin => h ((List.prefix_append opening openingTail).isInfix.trans hin)) afterMarker
  cases afterMarker with
  | false => exact hliteral
  | true =>
    have hcontinues : ¬Continues (literalChars true text) := not_continues_neutralizeAfterMarker (escape text)
    rw [closingBefore_true, closing_eq]
    intro hin
    rcases List.infix_cons_iff.1 hin with hstart | hin
    · exact hcontinues (Or.inr (List.cons_prefix_cons.1 (List.cons_prefix_cons.1 hstart).2).2)
    · rcases List.infix_cons_iff.1 hin with hstart | hin
      · exact hcontinues (Or.inl ((List.prefix_append ['_'] _).trans (List.cons_prefix_cons.1 hstart).2))
      · exact hliteral hin

/-- Where an opening stands in a literal text and what comes after it, it stands in the latter alone; or what comes after the
text does not end there, and if a marker comes then the text completes an opening. -/
theorem opening_in_literal {before after rest : List Char} (hquiet : Quiet text.toList)
    (h : closingBefore afterMarker ++ (literalChars afterMarker text ++ rest) = before ++ (opening ++ after)) :
    (∃ later, before = closingBefore afterMarker ++ (literalChars afterMarker text ++ later) ∧
        rest = later ++ (opening ++ after)) ∨
      rest ≠ [] ∧ ∀ tail, rest = opening ++ tail → Completes afterMarker text.toList := by
  have hclosed : Quiet (closingBefore afterMarker ++ literalChars afterMarker text) := quiet_closing_literalChars hquiet
  rw [← List.append_assoc] at h
  rcases List.append_eq_append_iff.1 h with ⟨later, rfl, hlater⟩ | ⟨part, hsplit, hopening⟩
  · exact Or.inl ⟨later, List.append_assoc _ _ _, hlater⟩
  · by_cases hpart : part = []
    · subst hpart
      rw [List.append_nil] at hsplit
      exact Or.inl ⟨[], by rw [List.append_nil, hsplit], hopening.symm⟩
    · refine Or.inr ⟨?_, ?_⟩
      · rintro rfl
        rw [List.append_nil] at hopening
        exact hclosed ⟨before, after, by rw [hsplit, ← hopening, List.append_assoc]⟩
      · -- the part of the opening in the text is all of it but its last character
        rintro tail rfl
        have hnot : ¬opening <+: part := fun hin =>
          hclosed (hin.isInfix.trans (hsplit ▸ List.suffix_append before part).isInfix)
        have hwhole : opening = part ++ ['_'] := opening_eq_append_of_overlap hnot hpart ⟨after, hopening⟩
        refine (opening_suffix_literalChars_iff hquiet).1 ?_
        rw [← List.append_assoc, hsplit, List.append_assoc, ← hwhole]
        exact List.suffix_append _ _

/-! ## Markers -/

/-- No opening starts in the end of a marker that another marker follows. -/
theorem unopened_closingBefore (afterMarker : Bool) (rest : List Char) :
    Unopened (closingBefore afterMarker) (opening ++ rest) := by
  cases afterMarker with
  | false => exact fun part hpart hne => absurd (List.suffix_nil.1 hpart) hne
  | true =>
    have hthird : ∀ c s, ¬opening <+: '_' :: '_' :: '_' :: c :: s := fun c s h =>
      absurd (List.cons_prefix_cons.1 (List.cons_prefix_cons.1 (List.cons_prefix_cons.1 h).2).2).1 (by decide)
    exact Unopened.append (Unopened.singleton (hthird _ _)) (Unopened.singleton (hthird _ _))

/-- No opening starts in a marker but where the marker does, up to its closing. -/
theorem unopened_marker {body : List Char} (hbody : IsBody body) (rest : List Char) :
    Unopened (openingTail ++ body) (closing ++ rest) := by
  refine Unopened.append (unopened_openingTail fun h => ?_) (hbody.unopened _)
  obtain ⟨c, others, rfl, hc⟩ := hbody.exists_cons
  exact ne_of_isPlain hc (List.cons_prefix_cons.1 h).1.symm

/-- Where an opening stands in a marker and what comes after it, it is the start of the marker, or it stands in the closing of
the marker and what comes after that. -/
theorem opening_in_marker {body before after rest : List Char} (hbody : IsBody body)
    (h : closingBefore afterMarker ++ (opening ++ (body ++ (closing ++ rest))) = before ++ (opening ++ after)) :
    before = closingBefore afterMarker ∨
      ∃ later, before = closingBefore afterMarker ++ (opening ++ (body ++ later)) ∧
        closing ++ rest = later ++ (opening ++ after) := by
  obtain ⟨start, rfl, hstart⟩ := (unopened_closingBefore afterMarker _).exists_append h
  cases start with
  | nil => exact Or.inl (List.append_nil _)
  | cons c start =>
    obtain rfl : '_' = c := (List.cons.inj hstart).1
    have htail : openingTail ++ body ++ (closing ++ rest) = start ++ (opening ++ after) := by
      rw [List.append_assoc]
      exact (List.cons.inj hstart).2
    obtain ⟨later, rfl, hlater⟩ := (unopened_marker hbody rest).exists_append htail
    refine Or.inr ⟨later, ?_, hlater⟩
    rw [opening_eq, List.append_assoc]
    rfl

end Marker

/-! ## Openings in merged parts -/

namespace Part

/-- Whether a marker stands at the end of what is written for parts. -/
def endsInMarker (afterMarker : Bool) : List Part → Bool
  | [] => afterMarker
  | slot _ :: rest => endsInMarker true rest
  | literal _ :: rest | markup _ :: rest => endsInMarker false rest

/-- Parts are written one after the other, knowing of those before only whether they end in a marker. -/
theorem write_append (afterMarker : Bool) (front back : List Part) :
    write afterMarker (front ++ back) = write afterMarker front ++ write (endsInMarker afterMarker front) back := by
  induction front generalizing afterMarker with
  | nil => rfl
  | cons part front ih => cases part <;> simp only [List.cons_append, write, endsInMarker, ih, List.append_assoc]

/-- What is written for parts, with the end of the marker that stands before them. -/
def writeClosed (afterMarker : Bool) (parts : List Part) : List Char := closingBefore afterMarker ++ write afterMarker parts

/-- A literal text is written behind the closing of the marker before it, if there is one. -/
theorem writeClosed_literal (afterMarker : Bool) (text : String) (rest : List Part) :
    writeClosed afterMarker (literal text :: rest) =
      closingBefore afterMarker ++ (literalChars afterMarker text ++ writeClosed false rest) := rfl

/-- A slot is written as an opening with the body of a marker, whose closing falls to what is written next. -/
theorem exists_writeClosed_slot (afterMarker : Bool) (name : String) : ∃ body, IsBody body ∧ ∀ rest,
    writeClosed afterMarker (slot name :: rest) =
      closingBefore afterMarker ++ (opening ++ (body ++ writeClosed true rest)) := by
  obtain ⟨body, hbody, hmarker⟩ := isMarker_ofSlot name
  refine ⟨body, hbody, fun rest => ?_⟩
  rw [writeClosed, write, hmarker, writeClosed, closingBefore_true]
  simp

/-- If a marker stands at the end, then its closing does. -/
theorem closingBefore_suffix_writeClosed (afterMarker : Bool) (parts : List Part) :
    closingBefore (endsInMarker afterMarker parts) <:+ writeClosed afterMarker parts := by
  induction parts generalizing afterMarker with
  | nil =>
    rw [writeClosed, write, List.append_nil]
    exact List.suffix_refl _
  | cons part parts ih =>
    cases part with
    | slot name =>
      obtain ⟨body, -, hslot⟩ := exists_writeClosed_slot afterMarker name
      refine (ih true).trans ⟨closingBefore afterMarker ++ (opening ++ body), ?_⟩
      rw [hslot]
      simp
    | literal text | markup html => exact (ih false).trans ((List.suffix_append _ _).trans (List.suffix_append _ _))

/-- An opening in merged parts starts where the marker of a slot does, or some literal text completes it. Literal texts do not
hold openings, and two of them do not meet. -/
theorem exists_of_opening {parts : List Part} (hapart : Apart parts) (hpure : ∀ html, markup html ∉ parts)
    (hquiet : ∀ run ∈ parts.filterMap literal?, Quiet run.toList) {afterMarker : Bool} {before after : List Char}
    (h : writeClosed afterMarker parts = before ++ (opening ++ after)) :
    (∃ front name back, parts = front ++ slot name :: back ∧ before = writeClosed afterMarker front) ∨
      ∃ front text name back, parts = front ++ literal text :: slot name :: back ∧
        Completes (endsInMarker afterMarker front) text.toList := by
  induction parts generalizing afterMarker before with
  -- behind the last part there is at most a closing, which is too short for an opening
  | nil =>
    have hlength := congrArg List.length h
    have hshort : (closingBefore afterMarker).length ≤ 2 := by cases afterMarker <;> decide
    have hten : opening.length = 10 := rfl
    rw [writeClosed, write, List.append_nil, List.length_append, List.length_append] at hlength
    omega
  | cons part parts ih =>
    have hpure' : ∀ html, markup html ∉ parts := fun html hin => hpure html (List.mem_cons_of_mem _ hin)
    have hquiet' : ∀ run ∈ parts.filterMap literal?, Quiet run.toList := forall_literal_of_cons hquiet
    cases part with
    | markup html => exact absurd List.mem_cons_self (hpure html)
    | slot name =>
      obtain ⟨body, hbody, hslot⟩ := exists_writeClosed_slot afterMarker name
      rw [hslot] at h
      -- either it is the opening of this very marker, or it starts after it
      rcases opening_in_marker hbody h with rfl | ⟨later, rfl, hlater⟩
      · exact Or.inl ⟨[], name, parts, rfl, (List.append_nil _).symm⟩
      · have hbelow : writeClosed true parts = later ++ (opening ++ after) := hlater
        rcases ih hapart.tail hpure' hquiet' hbelow with
          ⟨front, other, back, rfl, rfl⟩ | ⟨front, text, other, back, rfl, hcompletes⟩
        · exact Or.inl ⟨slot name :: front, other, back, rfl, (hslot front).symm⟩
        · exact Or.inr ⟨slot name :: front, text, other, back, rfl, hcompletes⟩
    | literal text =>
      rw [writeClosed_literal] at h
      rcases opening_in_literal (hquiet text List.mem_cons_self) h with ⟨later, rfl, hlater⟩ | ⟨hne, hcompletes⟩
      · rcases ih hapart.tail hpure' hquiet' hlater with
          ⟨front, name, back, rfl, rfl⟩ | ⟨front, other, name, back, rfl, hcompletes⟩
        · exact Or.inl ⟨literal text :: front, name, back, rfl, (writeClosed_literal _ _ _).symm⟩
        · exact Or.inr ⟨literal text :: front, other, name, back, rfl, hcompletes⟩
      · -- it ends behind the text, where the marker of a slot must stand
        have hparts : parts ≠ [] := fun hnil => hne (hnil ▸ rfl)
        obtain ⟨name, rest, rfl⟩ := hapart.exists_slot hpure' hparts
        obtain ⟨body, -, hslot⟩ := exists_writeClosed_slot false name
        exact Or.inr ⟨[], text, name, rest, rfl, hcompletes _ (hslot rest)⟩

/-- Where a slot stands in merged parts after one is put in front, that one is the slot, or the slot stood there before. -/
theorem exists_of_consMerged_eq {part : Part} {parts front back : List Part} {name : String}
    (h : consMerged part parts = front ++ slot name :: back) :
    (front = [] ∧ part = slot name ∧ parts = back) ∨
      ∃ front', parts = front' ++ slot name :: back ∧ front = consMerged part front' := by
  have hslot : ∀ text, slot name ≠ literal text := nofun
  have hkept : ∀ front', parts = front' ++ slot name :: back → front = consMerged part front' := by
    rintro front' rfl
    rw [consMerged_append hslot] at h
    exact (List.append_cancel_right h).symm
  rcases consMerged_cases part parts with ⟨s, t, rest, -, rfl, heq⟩ | ⟨-, heq⟩ | ⟨heq, -⟩
  · rw [heq] at h
    rcases List.cons_eq_append_iff.1 h with ⟨-, hstart⟩ | ⟨front', -, rfl⟩
    · cases hstart
    · exact Or.inr ⟨literal t :: front', rfl, hkept (literal t :: front') rfl⟩
  · exact Or.inr ⟨front, heq ▸ h, hkept front (heq ▸ h)⟩
  · rw [heq] at h
    rcases List.cons_eq_append_iff.1 h with ⟨rfl, hstart⟩ | ⟨front', -, rfl⟩
    · obtain ⟨rfl, rfl⟩ := List.cons.inj hstart
      exact Or.inl ⟨rfl, rfl, rfl⟩
    · exact Or.inr ⟨front', rfl, hkept front' rfl⟩

/-- A slot in merged parts is one of the parts, and what stands before it is merged from the parts before that. -/
theorem exists_of_merge_eq {parts front back : List Part} {name : String} (h : merge parts = front ++ slot name :: back) :
    ∃ before after, parts = before ++ slot name :: after ∧ merge before = front := by
  induction parts generalizing front with
  | nil => exact absurd h.symm (List.append_ne_nil_of_right_ne_nil front (List.cons_ne_nil _ _))
  | cons part parts ih =>
    have hpart : consMerged part (merge parts) = front ++ slot name :: back := h
    rcases exists_of_consMerged_eq hpart with ⟨rfl, rfl, -⟩ | ⟨front', hfront, rfl⟩
    · exact ⟨[], parts, rfl, rfl⟩
    · obtain ⟨before, after, rfl, rfl⟩ := ih hfront
      exact ⟨part :: before, after, rfl, rfl⟩

end Part

/-! ## Openings in written segments -/

/-- Every opening in a text stands where the marker of a slot among the segments starts, right after what is written for the
segments before it. -/
def OpeningsStartMarkers (segments : List Segment) (text : List Char) : Prop :=
  ∀ before after, text = before ++ (opening ++ after) → ∃ front name back, segments = front ++ .slot name :: back ∧
    before = writtenSegments front ∧ (ofSlot name).toList <+: opening ++ after

/-- A run of literal text among the segments makes up an opening with the marker after it. -/
def HasBareOpening (segments : List Segment) : Prop :=
  ∃ front text name back, Part.merge (segments.map Part.ofSegment) = front ++ .literal text :: .slot name :: back ∧
    Completes (Part.endsInMarker false front) text.toList

/-- A slot is written as its marker, after what is written for the segments before it. -/
theorem writtenSegments_append_slot (front : List Segment) (name : String) (back : List Segment) :
    ∃ rest, writtenSegments (front ++ .slot name :: back) = writtenSegments front ++ ((ofSlot name).toList ++ rest) := by
  have hslot : ∀ text, Part.slot name ≠ .literal text := nofun
  refine ⟨Part.write true (Part.merge (back.map Part.ofSegment)), ?_⟩
  rw [writtenSegments, List.map_append, List.map_cons, Part.ofSegment, Part.merge_append hslot, Part.write_append,
    Part.write]
  rfl

/-- A slot among the parts of segments is one of the segments. -/
theorem exists_of_map_ofSegment_eq {segments : List Segment} {before after : List Part} {name : String}
    (h : segments.map Part.ofSegment = before ++ .slot name :: after) :
    ∃ front back, segments = front ++ .slot name :: back ∧ front.map Part.ofSegment = before := by
  obtain ⟨front, others, rfl, rfl, hothers⟩ := List.map_eq_append_iff.1 h
  obtain ⟨segment, back, rfl, hsegment, -⟩ := List.map_eq_cons_iff.1 hothers
  cases segment with
  | text content => cases hsegment
  | slot other =>
    cases hsegment
    exact ⟨front, back, rfl, rfl⟩

/-- After the opening of a marker comes no underscore. -/
theorem not_marker_prefix_overlap (name : String) (rest : List Char) :
    ¬(ofSlot name).toList <+: opening ++ (openingTail ++ rest) := by
  obtain ⟨body, hbody, hmarker⟩ := isMarker_ofSlot name
  obtain ⟨c, others, rfl, hc⟩ := hbody.exists_cons
  rw [hmarker, List.append_assoc, List.prefix_append_right_inj]
  exact fun h => ne_of_isPlain hc (List.cons_prefix_cons.1 h).1

/-- Where a run of literal text makes up an opening with the marker after it, the rest of the opening of the marker follows. -/
theorem exists_written_of_hasBareOpening {segments : List Segment}
    (hquiet : ∀ run ∈ literalRuns segments, Quiet run.toList) (h : HasBareOpening segments) :
    ∃ before rest, writtenSegments segments = before ++ (opening ++ (openingTail ++ rest)) := by
  obtain ⟨front, text, name, back, hmerged, hcompletes⟩ := h
  have htext : Quiet text.toList := hquiet text (by simp [literalRuns, hmerged, Part.literal?])
  obtain ⟨before, hbefore⟩ := (opening_suffix_literalChars_iff htext).2 hcompletes
  obtain ⟨earlier, hearlier⟩ := Part.closingBefore_suffix_writeClosed false front
  have hfront : Part.write false front = earlier ++ closingBefore (Part.endsInMarker false front) := hearlier.symm
  obtain ⟨tail, htail⟩ := (isMarker_ofSlot name).opens
  refine ⟨earlier ++ before, tail ++ Part.write true back, ?_⟩
  calc writtenSegments segments
      = Part.write false front ++ (literalChars (Part.endsInMarker false front) text ++
          ((ofSlot name).toList ++ Part.write true back)) := by
        rw [writtenSegments, hmerged, Part.write_append, Part.write_literal, Part.write]
    _ = earlier ++ (closingBefore (Part.endsInMarker false front) ++
          (literalChars (Part.endsInMarker false front) text ++ ['_'])) ++
            (openingTail ++ (tail ++ Part.write true back)) := by
        rw [hfront, htail, opening_eq]
        simp
    _ = earlier ++ before ++ (opening ++ (openingTail ++ (tail ++ Part.write true back))) := by
        rw [← hbefore]
        simp

/-- If no run of literal text holds an opening, then every opening in what is written starts a marker exactly if no run makes
one up with the marker after it. -/
theorem openingsStartMarkers_writtenSegments_iff {segments : List Segment}
    (hquiet : ∀ run ∈ literalRuns segments, Quiet run.toList) :
    OpeningsStartMarkers segments (writtenSegments segments) ↔ ¬HasBareOpening segments := by
  constructor
  · intro hstart hbare
    obtain ⟨before, rest, hwritten⟩ := exists_written_of_hasBareOpening hquiet hbare
    obtain ⟨_, name, _, -, -, hmarker⟩ := hstart before (openingTail ++ rest) hwritten
    exact not_marker_prefix_overlap name rest hmarker
  · intro hbare before after heq
    have hopening : Part.writeClosed false (Part.merge (segments.map Part.ofSegment)) = before ++ (opening ++ after) := heq
    rcases Part.exists_of_opening (Part.apart_merge _) (markup_not_mem_merge segments) hquiet hopening with
      ⟨front, name, back, hmerged, hbefore⟩ | ⟨front, text, name, back, hmerged, hcompletes⟩
    · obtain ⟨_, _, hparts, rfl⟩ := Part.exists_of_merge_eq hmerged
      obtain ⟨first, others, rfl, rfl⟩ := exists_of_map_ofSegment_eq hparts
      refine ⟨first, name, others, rfl, hbefore, ?_⟩
      obtain ⟨rest, hrest⟩ := writtenSegments_append_slot first name others
      rw [hrest, hbefore] at heq
      exact ⟨rest, List.append_cancel_left heq⟩
    · exact absurd ⟨front, text, name, back, hmerged, hcompletes⟩ hbare

/-! ## Openings in what writers write -/

/-- If no run of literal text holds an opening, then every opening in what is written for values as content starts the marker
of a slot exactly if no run makes one up with the marker after it; and so it is between the quotes of an attribute. -/
theorem openings_start_markers_iff (values : List Value) (w : Writer) (name : String) (segments : List Segment) :
    ((∀ run ∈ literalRuns (contentSegments values), Quiet run.toList) →
      (OpeningsStartMarkers (contentSegments values) (Writer.empty.texts values).html.toList ↔
        ¬HasBareOpening (contentSegments values))) ∧
    ((∀ run ∈ literalRuns segments, Quiet run.toList) → ∃ quoted : List Char,
      (w.pushAttribute name (.quoted segments)).html.toList =
        w.html.toList ++ ' ' :: (name.toList ++ "=\"".toList) ++ (quoted ++ ['"']) ∧
      (OpeningsStartMarkers segments quoted ↔ ¬HasBareOpening segments)) := by
  constructor
  · intro hquiet
    rw [Writer.toList_html, Writer.written_texts]
    exact openingsStartMarkers_writtenSegments_iff hquiet
  · intro hquiet
    refine ⟨writtenSegments segments, ?_, openingsStartMarkers_writtenSegments_iff hquiet⟩
    rw [Writer.toList_html, Writer.toList_html, Writer.written_pushAttribute, List.append_assoc]
    rfl

/-- A text that lacks an underscore at each end of an opening makes up none between two slots, be it content or an
attribute. -/
theorem openings_start_markers_inner :
    (∀ run ∈ literalRuns (contentSegments [.ofSlot "A", .string "_RUXY_SV", .ofSlot "S"]), Quiet run.toList) ∧
    OpeningsStartMarkers (contentSegments [.ofSlot "A", .string "_RUXY_SV", .ofSlot "S"])
      (Writer.empty.texts [.ofSlot "A", .string "_RUXY_SV", .ofSlot "S"]).html.toList ∧
    ∃ quoted : List Char,
      (Writer.empty.pushAttribute "title" (.quoted [.slot "A", .text "_RUXY_SV", .slot "S"])).html.toList =
        " title=\"".toList ++ (quoted ++ ['"']) ∧
      OpeningsStartMarkers [.slot "A", .text "_RUXY_SV", .slot "S"] quoted := by
  have hquiet : ∀ run ∈ ["_RUXY_SV"], Quiet run.toList :=
    List.forall_mem_singleton.2 (.of_length_lt (by decide))
  have hbare : ¬HasBareOpening [.slot "A", .text "_RUXY_SV", .slot "S"] := by
    rintro ⟨front, text, name, back, hmerged, hcompletes⟩
    have hparts : [Part.slot "A", .literal "_RUXY_SV", .slot "S"] = front ++ .literal text :: .slot name :: back := hmerged
    rcases front with _ | ⟨_, _ | ⟨_, _ | ⟨_, front⟩⟩⟩
    · cases hparts
    · cases hparts
      exact absurd hcompletes (by decide)
    · cases hparts
    · simp at hparts
  obtain ⟨hcontent, hattribute⟩ := openings_start_markers_iff [.ofSlot "A", .string "_RUXY_SV", .ofSlot "S"] Writer.empty
    "title" [.slot "A", .text "_RUXY_SV", .slot "S"]
  obtain ⟨quoted, hhtml, hiff⟩ := hattribute hquiet
  exact ⟨hquiet, (hcontent hquiet).2 hbare, quoted, hhtml, hiff.2 hbare⟩

/-- A text that lacks but the last underscore of an opening makes one up with the marker after it, and so does the text that
is missing between two markers. -/
theorem bareOpening_starts_no_marker :
    ((∀ run ∈ literalRuns (contentSegments [.string "__RUXY_SV", .ofSlot "S"]), Quiet run.toList) ∧
      ¬OpeningsStartMarkers (contentSegments [.string "__RUXY_SV", .ofSlot "S"])
        (Writer.empty.texts [.string "__RUXY_SV", .ofSlot "S"]).html.toList) ∧
    (∀ run ∈ literalRuns (contentSegments [.ofSlot "A", .string "RUXY_SV", .ofSlot "S"]), Quiet run.toList) ∧
      ¬OpeningsStartMarkers (contentSegments [.ofSlot "A", .string "RUXY_SV", .ofSlot "S"])
        (Writer.empty.texts [.ofSlot "A", .string "RUXY_SV", .ofSlot "S"]).html.toList := by
  have hfails : ∀ values, (∀ run ∈ literalRuns (contentSegments values), Quiet run.toList) →
      HasBareOpening (contentSegments values) →
      ¬OpeningsStartMarkers (contentSegments values) (Writer.empty.texts values).html.toList := by
    intro values hquiet hbare
    rw [Writer.toList_html, Writer.written_texts]
    exact fun hstart => (openingsStartMarkers_writtenSegments_iff hquiet).1 hstart hbare
  have hfirst : ∀ run ∈ ["__RUXY_SV"], Quiet run.toList := List.forall_mem_singleton.2 (.of_length_lt (by decide))
  have hsecond : ∀ run ∈ ["RUXY_SV"], Quiet run.toList := List.forall_mem_singleton.2 (.of_length_lt (by decide))
  refine ⟨⟨hfirst, hfails _ hfirst ?_⟩, hsecond, hfails _ hsecond ?_⟩
  · exact ⟨[], "__RUXY_SV", "S", [], rfl, by decide⟩
  · exact ⟨[.slot "A"], "RUXY_SV", "S", [], rfl, by decide⟩

end Prebake
