import Prebake.Proofs.Markup.Neutralize

/-!
# Markers in literal text

Escaping touches no character of a marker, so a literal text forges a marker exactly if its escaped form does
(`forges_escape_iff`). Escaped and neutralized, whether after a marker or not, a literal text holds a marker exactly if it
forges one (`scan_literal_iff`); such texts exist (`scan_literal_ne_nil`).
-/

namespace Prebake.Markup

open Marker

/-- The characters that are written for those of a literal text. -/
def escapeChars (s : List Char) : List Char := s.flatMap escapeChar

theorem toList_escape (text : String) : (escape text).toList = escapeChars text.toList := String.toList_ofList

theorem escapeChars_append (s t : List Char) : escapeChars (s ++ t) = escapeChars s ++ escapeChars t :=
  List.flatMap_append

theorem escapeChars_cons (c : Char) (s : List Char) : escapeChars (c :: s) = escapeChar c ++ escapeChars s :=
  List.flatMap_cons

/-- A character stands for itself, or it is written as a reference, which holds no underscore. -/
theorem escapeChar_cases (c : Char) :
    escapeChar c = [c] ∨ ∃ rest, escapeChar c = '&' :: rest ∧ ('_' ∉ escapeChar c) := by
  unfold escapeChar
  split <;> first | exact Or.inr ⟨_, rfl, by decide⟩ | exact Or.inl rfl

/-- No character of a marker is escaped. -/
theorem escapeChar_of_isMarkerChar {c : Char} (h : isMarkerChar c = true) : escapeChar c = [c] := by
  unfold escapeChar
  split <;> first | exact absurd h (by decide) | rfl

/-- A text of characters of markers stays as it is when it is escaped. -/
theorem escapeChars_of_isMarkerChar {word : List Char} (h : ∀ c ∈ word, isMarkerChar c = true) :
    escapeChars word = word := by
  induction word with
  | nil => rfl
  | cons c word ih =>
    rw [escapeChars_cons, escapeChar_of_isMarkerChar (h c List.mem_cons_self),
      ih fun d hd => h d (List.mem_cons_of_mem _ hd)]
    rfl

/-- Escaping makes no character vanish. -/
theorem escapeChars_eq_nil {s : List Char} (h : escapeChars s = []) : s = [] := by
  cases s with
  | nil => rfl
  | cons c s =>
    rw [escapeChars_cons, List.append_eq_nil_iff] at h
    rcases escapeChar_cases c with hc | ⟨rest, hc, -⟩
    · rw [hc] at h
      cases h.1
    · rw [hc] at h
      cases h.1

/-- A word of marker characters at the start of an escaped text is there in the text itself. -/
theorem exists_of_escapeChars_eq_append {word rest s : List Char} (hword : ∀ c ∈ word, isMarkerChar c = true)
    (h : escapeChars s = word ++ rest) : ∃ after, s = word ++ after ∧ rest = escapeChars after := by
  induction word generalizing s with
  | nil => exact ⟨s, rfl, h.symm⟩
  | cons c word ih =>
    cases s with
    | nil => cases h
    | cons d s =>
      have hc := hword c List.mem_cons_self
      rw [escapeChars_cons] at h
      rcases escapeChar_cases d with hd | ⟨reference, hd, -⟩
      · rw [hd] at h
        obtain rfl : d = c := (List.cons.inj h).1
        have htail : escapeChars s = word ++ rest := (List.cons.inj h).2
        obtain ⟨after, rfl, hrest⟩ := ih (fun e he => hword e (List.mem_cons_of_mem _ he)) htail
        exact ⟨after, rfl, hrest⟩
      · rw [hd] at h
        have hfirst : '&' = c := (List.cons.inj h).1
        exact absurd (hfirst ▸ hc) (by decide)

/-- A character comes after any word at the start of a text that does not hold it. -/
theorem exists_append_of_not_mem {c : Char} {word s before rest : List Char} (hc : c ∉ word)
    (h : word ++ s = before ++ c :: rest) : ∃ before', before = word ++ before' ∧ s = before' ++ c :: rest := by
  rcases List.append_eq_append_iff.1 h with ⟨before', hbefore, hs⟩ | ⟨part, rfl, hpart⟩
  · exact ⟨before', hbefore, hs⟩
  · cases part with
    | nil => exact ⟨[], by simp, hpart.symm⟩
    | cons d part =>
      obtain rfl : c = d := (List.cons.inj hpart).1
      exact absurd (List.mem_append_right _ List.mem_cons_self) hc

/-- An underscore in an escaped text is there in the text itself. -/
theorem exists_of_escapeChars_eq_underscore {before rest s : List Char} (h : escapeChars s = before ++ '_' :: rest) :
    ∃ first after, s = first ++ '_' :: after ∧ before = escapeChars first ∧ rest = escapeChars after := by
  induction s generalizing before with
  | nil => exact absurd (congrArg List.length h) (by simp [escapeChars])
  | cons d s ih =>
    rw [escapeChars_cons] at h
    by_cases hd : d = '_'
    · subst hd
      cases before with
      | nil => exact ⟨[], s, rfl, rfl, (List.cons.inj h).2.symm⟩
      | cons c before =>
        obtain rfl : '_' = c := (List.cons.inj h).1
        have htail : escapeChars s = before ++ '_' :: rest := (List.cons.inj h).2
        obtain ⟨first, after, rfl, rfl, hrest⟩ := ih htail
        exact ⟨'_' :: first, after, rfl, rfl, hrest⟩
    · have hnot : '_' ∉ escapeChar d := by
        rcases escapeChar_cases d with hchar | ⟨reference, -, hnot⟩
        · rw [hchar, List.mem_singleton]
          exact fun same => hd same.symm
        · exact hnot
      obtain ⟨before', rfl, htail⟩ := exists_append_of_not_mem hnot h
      obtain ⟨first, after, rfl, rfl, hrest⟩ := ih htail
      exact ⟨d :: first, after, rfl, (escapeChars_cons d first).symm, hrest⟩

/-- An escaped text is a word of marker characters exactly if the text itself is. -/
theorem escapeChars_eq_iff {word s : List Char} (hword : ∀ c ∈ word, isMarkerChar c = true) :
    escapeChars s = word ↔ s = word := by
  constructor
  · intro h
    obtain ⟨after, rfl, hafter⟩ := exists_of_escapeChars_eq_append hword (h.trans (List.append_nil word).symm)
    rw [escapeChars_eq_nil hafter.symm, List.append_nil]
  · rintro rfl
    exact escapeChars_of_isMarkerChar hword

/-- Escaping brings no word together that consists of marker characters and starts with an underscore. -/
theorem infix_of_escapeChars {word s : List Char} (hword : ∀ c ∈ word, isMarkerChar c = true)
    (h : '_' :: word <:+: escapeChars s) : '_' :: word <:+: s := by
  obtain ⟨before, rest, heq⟩ := h
  rw [List.append_assoc] at heq
  obtain ⟨first, tail, rfl, -, htail⟩ := exists_of_escapeChars_eq_underscore heq.symm
  obtain ⟨after, rfl, -⟩ := exists_of_escapeChars_eq_append hword htail.symm
  exact ⟨first, after, by simp⟩

/-! ## Openings in escaped text -/

/-- Tails consist of characters of markers. -/
theorem isMarkerChar_tails (count : Nat) : ∀ c ∈ tails count, isMarkerChar c = true := by
  intro c hc
  obtain ⟨tail, htail, hc⟩ := List.mem_flatten.1 hc
  rw [List.eq_of_mem_replicate htail] at hc
  exact isMarkerChar_opening c (List.mem_cons_of_mem _ hc)

/-- An escaped text starts with an opening if the text does. -/
theorem opening_prefix_escapeChars_iff {s : List Char} : opening <+: escapeChars s ↔ opening <+: s := by
  constructor
  · rintro ⟨rest, hrest⟩
    obtain ⟨after, rfl, -⟩ := exists_of_escapeChars_eq_append isMarkerChar_opening hrest.symm
    exact List.prefix_append _ _
  · rintro ⟨rest, rfl⟩
    rw [escapeChars_append, escapeChars_of_isMarkerChar isMarkerChar_opening]
    exact List.prefix_append _ _

/-- An escaped text ends with an opening if the text does. -/
theorem opening_suffix_escapeChars_iff {s : List Char} : opening <:+ escapeChars s ↔ opening <:+ s := by
  constructor
  · rintro ⟨before, hbefore⟩
    rw [opening_eq] at hbefore
    obtain ⟨first, after, rfl, -, htail⟩ := exists_of_escapeChars_eq_underscore hbefore.symm
    have hword : escapeChars after = openingTail ++ [] := by rw [List.append_nil, ← htail]
    obtain ⟨rest, rfl, hrest⟩ := exists_of_escapeChars_eq_append
      (fun c hc => isMarkerChar_opening c (List.mem_cons_of_mem _ hc)) hword
    rw [escapeChars_eq_nil hrest.symm, List.append_nil]
    exact ⟨first, rfl⟩
  · rintro ⟨before, rfl⟩
    rw [escapeChars_append, escapeChars_of_isMarkerChar isMarkerChar_opening]
    exact ⟨escapeChars before, rfl⟩

/-- Whether an opening starts in a word is the same before a text and before its escaped form. -/
theorem unopened_escapeChars_iff {word after : List Char} (hword : ∀ c ∈ word, isMarkerChar c = true) :
    Unopened word (escapeChars after) ↔ Unopened word after := by
  refine forall₃_congr fun part hpart _ => not_congr ?_
  have hpart' : escapeChars part = part := escapeChars_of_isMarkerChar fun c hc => hword c (hpart.subset hc)
  rw [← opening_prefix_escapeChars_iff (s := part ++ after), escapeChars_append, hpart']

/-- A text forges a marker exactly if its escaped form does. -/
theorem forges_escape_iff {s : List Char} : Forges (escapeChars s) ↔ Forges s := by
  have hone : escapeChars ['_'] = ['_'] := rfl
  have hword : ∀ count body, IsBody body → ∀ c ∈ tails (2 * (count + 1)) ++ (body ++ closing), isMarkerChar c = true := by
    intro count body hbody c hc
    simp only [List.mem_append] at hc
    rcases hc with hc | hc | hc
    · exact isMarkerChar_tails _ c hc
    · exact hbody.isMarkerChar c hc
    · exact isMarkerChar_closing c hc
  constructor
  · rintro ⟨before, count, body, rest, hsplit, hbefore, hbody, hrest⟩
    obtain ⟨first, tail, rfl, rfl, htail⟩ := exists_of_escapeChars_eq_underscore hsplit
    rw [← List.append_assoc] at htail
    obtain ⟨after, rfl, rfl⟩ := exists_of_escapeChars_eq_append (hword count body hbody) htail.symm
    refine ⟨first, count, body, after, by simp, fun h => hbefore ?_, hbody, (unopened_escapeChars_iff isMarkerChar_closing).1 hrest⟩
    have hescaped := opening_suffix_escapeChars_iff.2 h
    rwa [escapeChars_append, hone] at hescaped
  · rintro ⟨first, count, body, after, rfl, hfirst, hbody, hafter⟩
    refine ⟨escapeChars first, count, body, escapeChars after, ?_, fun h => hfirst ?_, hbody,
      (unopened_escapeChars_iff isMarkerChar_closing).2 hafter⟩
    · have hsplit : first ++ '_' :: (tails (2 * (count + 1)) ++ (body ++ closing ++ after)) =
          first ++ ['_'] ++ (tails (2 * (count + 1)) ++ (body ++ closing)) ++ after := by simp
      rw [hsplit, escapeChars_append, escapeChars_append, escapeChars_append, hone,
        escapeChars_of_isMarkerChar (hword count body hbody)]
      simp
    · rw [← hone, ← escapeChars_append] at h
      exact opening_suffix_escapeChars_iff.1 h

/-! ## Literal text -/

theorem toList_neutralize (escaped : String) : (neutralize escaped).toList = neutralizeChars escaped.toList :=
  String.toList_ofList

/-- What is written for a literal text, right after a marker or elsewhere. -/
def literalChars (afterMarker : Bool) (text : String) : List Char :=
  (if afterMarker then neutralizeAfterMarker (escape text) else neutralize (escape text)).toList

theorem literalChars_false (text : String) : literalChars false text = neutralizeChars (escape text).toList :=
  toList_neutralize (escape text)

theorem literalChars_true (text : String) : literalChars true text = (neutralizeAfterMarker (escape text)).toList := rfl

/-- A literal text, escaped and neutralized, holds no marker exactly if it does not forge one. Right after a marker that
is the only one found, under the same condition. -/
theorem scan_literal_iff (text slot : String) :
    (scan (neutralize (escape text)) = [] ↔ ¬Forges text.toList) ∧
      (scan (ofSlot slot ++ neutralizeAfterMarker (escape text)) = [ofSlot slot] ↔ ¬Forges text.toList) := by
  have hforges : markersIn (neutralizeChars (escape text).toList) = [] ↔ ¬Forges text.toList := by
    rw [markersIn_neutralizeChars_eq_nil_iff, toList_escape, forges_escape_iff]
  constructor
  · rw [scan_eq, toList_neutralize, hforges]
  · rw [scan_eq, String.toList_append, markersIn_append_of_isMarker (isMarker_ofSlot slot),
      markersIn_neutralizeAfterMarker, String.ofList_toList, List.cons_eq_cons, hforges]
    exact and_iff_right rfl

/-- Two openings, the second of which starts with the last character of the first, are not both replaced: a marker can be
written as literal text. -/
theorem scan_literal_ne_nil : scan (neutralize (escape "__RUXY_SV__RUXY_SV_X__")) ≠ [] := by
  have hclosing : Unopened closing [] := by
    intro part hpart _ hopening
    have hshort := hpart.length_le
    have hlong := hopening.length_le
    rw [List.append_nil] at hlong
    exact absurd (hlong.trans hshort) (by decide)
  have hforges : Forges "__RUXY_SV__RUXY_SV_X__".toList :=
    ⟨[], 0, ['X'], [], by decide, by decide, Or.inl ⟨by decide, List.all_eq_true.1 (by decide)⟩, hclosing⟩
  rw [scan_eq, toList_neutralize, toList_escape]
  exact fun h => markersIn_neutralizeChars_eq_nil_iff.1 h (forges_escape_iff.2 hforges)

end Prebake.Markup
