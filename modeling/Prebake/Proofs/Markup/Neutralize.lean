import Prebake.Markup.Escape
import Prebake.Proofs.Markup.Scan

/-!
# Neutralized text

Literal text is neutralized by replacing its openings from left to right. The openings of a text may overlap, each one
starting with the last character of the one before, and then only every other one of them is replaced. What is replaced
keeps its last character, so the last one of an even number of such openings is left over. A neutralized text holds a
marker exactly if such an opening is followed by the rest of a marker (`Forges`).
-/

namespace Prebake.Marker

/-- What so many further openings add to one, if each starts with the last character of the one before. -/
def tails (count : Nat) : List Char := (List.replicate count openingTail).flatten

theorem tails_succ (count : Nat) : tails (count + 1) = openingTail ++ tails count := rfl

/-- What an opening is replaced by, but for its last character. -/
def replaced : List Char := ['&', '#', '9', '5', ';', '_', 'R', 'U', 'X', 'Y', '_', 'S', 'V']

/-- What an opening is replaced by ends with an underscore, as the opening does. -/
theorem neutralizedOpening_append (s : List Char) : neutralizedOpening ++ s = replaced ++ '_' :: s := rfl

/-- No opening starts in a word, given what comes after it. -/
def Unopened (word after : List Char) : Prop := ∀ part, part <:+ word → part ≠ [] → ¬opening <+: part ++ after

namespace Unopened

variable {word after : List Char}

/-- No opening starts in the end of a word if none starts in the word. -/
theorem of_suffix {part : List Char} (h : Unopened word after) (hpart : part <:+ word) : Unopened part after :=
  fun rest hrest => h rest (hrest.trans hpart)

theorem singleton {c : Char} (h : ¬opening <+: c :: after) : Unopened [c] after := by
  intro part hpart hne
  rcases List.suffix_cons_iff.1 hpart with rfl | hpart
  · exact h
  · exact absurd (List.suffix_nil.1 hpart) hne

/-- In two words side by side none starts if none starts in either, given what comes after it. -/
theorem append {first second : List Char} (hfirst : Unopened first (second ++ after)) (hsecond : Unopened second after) :
    Unopened (first ++ second) after := by
  rintro part ⟨before, hbefore⟩ hne
  rcases List.append_eq_append_iff.1 hbefore with ⟨middle, hmiddle, rfl⟩ | ⟨middle, -, hpart⟩
  · by_cases hnil : middle = []
    · subst hnil
      exact hsecond second (List.suffix_refl _) hne
    · rw [List.append_assoc]
      exact hfirst middle ⟨before, hmiddle.symm⟩ hnil
  · exact hsecond part ⟨middle, hpart.symm⟩ hne

/-- No opening starts without an underscore. -/
theorem of_not_mem {word : List Char} (h : '_' ∉ word) (after : List Char) : Unopened word after := by
  rintro part hpart hne hopening
  obtain ⟨c, rest, rfl⟩ := List.exists_cons_of_ne_nil hne
  exact h (hpart.subset ((List.cons_prefix_cons.1 hopening).1 ▸ List.mem_cons_self))

theorem of_plain {word : List Char} (h : ∀ c ∈ word, isPlain c = true) (after : List Char) : Unopened word after :=
  of_not_mem (fun hin => ne_of_isPlain (h '_' hin) rfl) after

/-- An opening in a text starts after any word at its start in which none starts. -/
theorem exists_append {before rest : List Char} (h : Unopened word after)
    (heq : word ++ after = before ++ (opening ++ rest)) :
    ∃ before', before = word ++ before' ∧ after = before' ++ (opening ++ rest) := by
  rcases List.append_eq_append_iff.1 heq with ⟨before', hbefore, hafter⟩ | ⟨part, hword, hopening⟩
  · exact ⟨before', hbefore, hafter⟩
  · by_cases hpart : part = []
    · subst hpart
      rw [List.append_nil] at hword
      exact ⟨[], by rw [hword, List.append_nil], hopening.symm⟩
    · exact absurd ⟨rest, hopening⟩ (h part ⟨before, hword.symm⟩ hpart)

end Unopened

/-- No opening starts in the replaced part of an opening. -/
theorem unopened_replaced (after : List Char) : Unopened replaced ('_' :: after) := by
  intro part hpart hne hopening
  have hshort : ∀ part ∈ replaced.tails, part ≠ [] → (opening.take 2).isPrefixOf (part ++ ['_']) = false := by decide
  have hstart : opening.take 2 <+: part ++ ['_'] := by
    have htwo : opening.take 2 <+: part ++ ['_'] ++ after := by
      rw [List.append_assoc]
      exact (List.take_prefix 2 opening).trans hopening
    refine List.prefix_of_prefix_length_le htwo (List.prefix_append _ _) ?_
    have hpos := List.length_pos_iff.2 hne
    have hlength : (opening.take 2).length = 2 := rfl
    rw [hlength, List.length_append, List.length_singleton]
    omega
  have hnot := hshort part ((List.mem_tails _ _).2 hpart) hne
  rw [List.isPrefixOf_iff_prefix.2 hstart] at hnot
  cases hnot

/-- No opening starts in the end of an opening either, unless its last character starts one. -/
theorem unopened_openingTail {after : List Char} (h : ¬openingTail <+: after) : Unopened openingTail after := by
  have hlast : ¬opening <+: '_' :: after := fun hopens => h (List.cons_prefix_cons.1 hopens).2
  have hkept : Unopened "_RUXY_SV".toList ('_' :: after) := (unopened_replaced after).of_suffix ⟨"&#95;".toList, rfl⟩
  show Unopened ("_RUXY_SV".toList ++ ['_']) after
  exact hkept.append (Unopened.singleton hlast)

/-! ## Neutralizing step by step -/

theorem neutralizeChars_nil : neutralizeChars [] = [] := by
  rw [neutralizeChars.eq_def, if_neg (by decide)]

/-- An opening is replaced, and what follows is neutralized. -/
theorem neutralizeChars_opening (s : List Char) :
    neutralizeChars (opening ++ s) = neutralizedOpening ++ neutralizeChars s := by
  rw [neutralizeChars.eq_def, if_pos (List.isPrefixOf_iff_prefix.2 (List.prefix_append _ _)), List.drop_left' rfl]

/-- Where no opening stands, a character is kept. -/
theorem neutralizeChars_cons {c : Char} {s : List Char} (h : ¬opening <+: c :: s) :
    neutralizeChars (c :: s) = c :: neutralizeChars s := by
  rw [neutralizeChars.eq_def, if_neg (fun hopens => h (List.isPrefixOf_iff_prefix.1 hopens))]

/-- A text is neutralized by taking openings off its start, and single characters where there is none. -/
theorem neutralize_induction {motive : List Char → Prop} (hnil : motive [])
    (hopening : ∀ s, motive s → motive (opening ++ s))
    (hchar : ∀ c s, ¬opening <+: c :: s → motive s → motive (c :: s)) (s : List Char) : motive s := by
  induction s using neutralizeChars.induct with
  | case1 s h ih =>
    obtain ⟨rest, rfl⟩ := List.isPrefixOf_iff_prefix.1 h
    rw [List.drop_left' rfl] at ih
    exact hopening rest ih
  | case2 h => exact hnil
  | case3 c s h ih => exact hchar c s (fun hopens => h (List.isPrefixOf_iff_prefix.2 hopens)) ih

/-! ## What is kept -/

/-- A word without a character reference at the start of a neutralized text was there before, and no opening started in
it. -/
theorem exists_of_neutralizeChars_eq {word rest s : List Char} (hword : '&' ∉ word)
    (h : neutralizeChars s = word ++ rest) :
    ∃ after, s = word ++ after ∧ rest = neutralizeChars after ∧ Unopened word after := by
  induction word generalizing s with
  | nil =>
    refine ⟨s, rfl, h.symm, fun part hpart hne => ?_⟩
    exact absurd (List.suffix_nil.1 hpart) hne
  | cons c word ih =>
    cases s using neutralize_induction with
    | hnil =>
      rw [neutralizeChars_nil] at h
      cases h
    | hopening s _ =>
      rw [neutralizeChars_opening] at h
      have hfirst : '&' = c := (List.cons.inj h).1
      exact absurd (hfirst ▸ List.mem_cons_self) hword
    | hchar d s hd _ =>
      rw [neutralizeChars_cons hd] at h
      obtain rfl : d = c := (List.cons.inj h).1
      have htail : neutralizeChars s = word ++ rest := (List.cons.inj h).2
      obtain ⟨after, rfl, hrest, hunopened⟩ := ih (List.not_mem_of_not_mem_cons hword) htail
      refine ⟨after, rfl, hrest, fun part hpart hne => ?_⟩
      rcases List.suffix_cons_iff.1 hpart with rfl | hpart
      · exact hd
      · exact hunopened part hpart hne

/-- A word in which no opening starts is kept. -/
theorem neutralizeChars_append {word after : List Char} (h : Unopened word after) :
    neutralizeChars (word ++ after) = word ++ neutralizeChars after := by
  induction word with
  | nil => rfl
  | cons c word ih =>
    have hc : ¬opening <+: c :: (word ++ after) := h (c :: word) (List.suffix_refl _) (List.cons_ne_nil c word)
    rw [List.cons_append, neutralizeChars_cons hc, ih (h.of_suffix (List.suffix_cons c word)), List.cons_append]

/-- A neutralized text does not start with an opening. -/
theorem not_opening_prefix_neutralizeChars (s : List Char) : ¬opening <+: neutralizeChars s := by
  rintro ⟨rest, hrest⟩
  obtain ⟨after, -, -, hunopened⟩ := exists_of_neutralizeChars_eq (by decide) hrest.symm
  exact hunopened opening (List.suffix_refl _) (by decide) (List.prefix_append _ _)

/-! ## The openings that are left over -/

/-- If one opening ends after another one and does not start after it, it starts with the last character of the other. -/
theorem eq_openingTail_of_overlap {rest : List Char} (hrest : ¬opening <:+ rest) (hne : rest ≠ [])
    (h : opening <:+ opening ++ rest) : rest = openingTail := by
  rcases List.suffix_or_suffix_of_suffix h (List.suffix_append opening rest) with hend | ⟨middle, hmiddle⟩
  · exact absurd hend hrest
  · obtain ⟨before, hbefore⟩ := h
    -- `middle` is where the two openings overlap
    have hsplit : before ++ middle = opening := by
      rw [← hmiddle, ← List.append_assoc, List.append_cancel_right_eq] at hbefore
      rw [hbefore, hmiddle]
    have hlength : before.length + middle.length = 10 := by rw [← List.length_append, hsplit]; rfl
    have hlength' : middle.length + rest.length = 10 := by rw [← List.length_append, hmiddle]; rfl
    have hpos := List.length_pos_iff.2 hne
    have hlt : before.length < 10 := by
      rcases Nat.lt_or_ge before.length 10 with hlt | hge
      · exact hlt
      · have hnil : middle = [] := List.eq_nil_of_length_eq_zero (by omega)
        rw [hnil, List.nil_append] at hmiddle
        exact absurd (hmiddle ▸ List.suffix_refl rest) hrest
    have hdrop : opening.drop before.length = middle := by rw [← hsplit, List.drop_left' rfl]
    have hnine := eq_nine_of_opening_drop (by omega) hlt (hdrop ▸ ⟨rest, hmiddle⟩)
    have htail : opening.drop middle.length = rest := by rw [← hmiddle, List.drop_left' rfl]
    rw [← htail, show middle.length = 1 by omega]
    rfl

/-- An opening in a neutralized text is the last one of an even number of openings. -/
theorem exists_tails_of_neutralizeChars_eq {s before rest : List Char}
    (h : neutralizeChars s = before ++ (opening ++ rest)) : ∃ first count after,
      s = first ++ '_' :: (tails (2 * (count + 1)) ++ after) ∧ ¬opening <:+ first ++ ['_'] ∧
        rest = neutralizeChars after := by
  induction s using neutralize_induction generalizing before with
  | hnil =>
    rw [neutralizeChars_nil] at h
    have hlength := congrArg List.length h
    simp [opening_eq] at hlength
  | hopening s ih =>
    rw [neutralizeChars_opening, neutralizedOpening_append] at h
    obtain ⟨before, -, hafter⟩ := (unopened_replaced _).exists_append h
    cases before with
    | nil =>
      -- the last character of the replaced opening starts another one
      have htail : neutralizeChars s = openingTail ++ rest := (List.cons.inj hafter).2
      obtain ⟨after, rfl, hrest, -⟩ := exists_of_neutralizeChars_eq (by decide) htail
      refine ⟨[], 0, after, ?_, by decide, hrest⟩
      simp [opening_eq, tails, List.replicate]
    | cons c before =>
      obtain ⟨first, count, after, rfl, hfirst, hrest⟩ := ih (List.cons.inj hafter).2
      by_cases hmore : opening <:+ opening ++ (first ++ ['_'])
      · have htail := eq_openingTail_of_overlap hfirst (by simp) hmore
        refine ⟨[], count + 1, after, ?_, by decide, hrest⟩
        have hcount : 2 * (count + 1 + 1) = 2 * (count + 1) + 1 + 1 := by omega
        rw [hcount, tails_succ, tails_succ]
        nth_rewrite 2 [← htail]
        simp [opening_eq]
      · rw [← List.append_assoc] at hmore
        exact ⟨opening ++ first, count, after, by simp, hmore, hrest⟩
  | hchar c s hc ih =>
    have hstart : ¬opening <+: c :: neutralizeChars s := by
      rw [← neutralizeChars_cons hc]
      exact not_opening_prefix_neutralizeChars _
    rw [neutralizeChars_cons hc] at h
    obtain ⟨before, -, hafter⟩ := (Unopened.singleton hstart).exists_append h
    obtain ⟨first, count, after, rfl, hfirst, hrest⟩ := ih hafter
    refine ⟨c :: first, count, after, rfl, fun hmore => ?_, hrest⟩
    rcases List.suffix_cons_iff.1 hmore with hwhole | hmore
    · refine hc ⟨tails (2 * (count + 1)) ++ after, ?_⟩
      rw [hwhole]
      simp
    · exact hfirst hmore

/-- Openings that overlap are neutralized two by two. -/
theorem neutralizeChars_tails {count : Nat} {after : List Char} (hafter : ¬openingTail <+: after) :
    ∃ before, neutralizeChars ('_' :: (tails (2 * (count + 1)) ++ after)) =
      before ++ (opening ++ neutralizeChars after) := by
  have hkept : ∀ s, Unopened "_RUXY_SV".toList ('_' :: s) := fun s =>
    (unopened_replaced s).of_suffix ⟨"&#95;".toList, rfl⟩
  induction count with
  | zero =>
    have hsplit : '_' :: (tails (2 * (0 + 1)) ++ after) = opening ++ (openingTail ++ after) := by
      simp [tails, opening_eq, List.replicate]
    refine ⟨replaced, ?_⟩
    rw [hsplit, neutralizeChars_opening, neutralizedOpening_append, neutralizeChars_append (unopened_openingTail hafter)]
    rfl
  | succ count ih =>
    obtain ⟨before, hbefore⟩ := ih
    have hcount : 2 * (count + 1 + 1) = 2 * (count + 1) + 1 + 1 := by omega
    have hsplit : '_' :: (tails (2 * (count + 1 + 1)) ++ after) =
        opening ++ ("_RUXY_SV".toList ++ '_' :: (tails (2 * (count + 1)) ++ after)) := by
      rw [hcount, tails_succ, tails_succ]
      rfl
    refine ⟨neutralizedOpening ++ "_RUXY_SV".toList ++ before, ?_⟩
    rw [hsplit, neutralizeChars_opening, neutralizeChars_append (hkept _), hbefore]
    simp

/-- The last one of an even number of openings is left over. -/
theorem exists_neutralizeChars_eq {first after : List Char} (hfirst : ¬opening <:+ first ++ ['_'])
    (hafter : ¬openingTail <+: after) (count : Nat) :
    ∃ before, neutralizeChars (first ++ '_' :: (tails (2 * (count + 1)) ++ after)) =
      before ++ (opening ++ neutralizeChars after) := by
  induction first using neutralize_induction with
  | hnil => exact neutralizeChars_tails hafter
  | hopening s ih =>
    obtain ⟨before, hbefore⟩ := ih fun h => hfirst (by
      rw [List.append_assoc]
      exact h.trans (List.suffix_append _ _))
    refine ⟨neutralizedOpening ++ before, ?_⟩
    rw [List.append_assoc, neutralizeChars_opening, hbefore, List.append_assoc]
  | hchar c s hc ih =>
    obtain ⟨before, hbefore⟩ := ih fun h => hfirst (h.trans (List.suffix_cons c _))
    have hsplit : '_' :: (tails (2 * (count + 1)) ++ after) = opening ++ (tails (2 * count + 1) ++ after) := rfl
    have hnone : ¬opening <+: c :: (s ++ '_' :: (tails (2 * (count + 1)) ++ after)) := by
      intro hopens
      rw [hsplit] at hopens
      have hoverlap := opening_eq_append_of_overlap hc (List.cons_ne_nil c s) hopens
      exact hfirst (hoverlap ▸ List.suffix_refl _)
    refine ⟨c :: before, ?_⟩
    rw [List.cons_append, neutralizeChars_cons hnone, hbefore, List.cons_append]

/-! ## Forged markers -/

/-- A text forges a marker: an even number of openings, each starting with the last character of the one before and the
first one not, is followed by a body and a closing in which no further opening starts. -/
def Forges (s : List Char) : Prop :=
  ∃ first count body after, s = first ++ '_' :: (tails (2 * (count + 1)) ++ (body ++ closing ++ after)) ∧
    ¬opening <:+ first ++ ['_'] ∧ IsBody body ∧ Unopened closing after

namespace IsBody

variable {body : List Char}

/-- No ampersand occurs in the body of a marker. -/
theorem not_mem (h : IsBody body) : '&' ∉ body := fun hin => absurd (h.isMarkerChar '&' hin) (by decide)

/-- No opening starts in a body: the only underscore of a body has a digit after it. -/
theorem unopened (h : IsBody body) (after : List Char) : Unopened body after := by
  rcases h with ⟨-, hbody⟩ | ⟨digits, rfl, hlength, hdigits⟩
  · exact Unopened.of_plain hbody after
  · have hplain : ∀ c ∈ digits, isPlain c = true := fun c hc => isPlain_of_isDigestDigit (hdigits c hc)
    obtain ⟨d, digits, rfl⟩ := List.exists_cons_of_length_pos (by rw [hlength]; decide)
    have hx : Unopened ['x'] ('_' :: d :: digits ++ after) :=
      Unopened.singleton fun h => absurd (List.cons_prefix_cons.1 h).1 (by decide)
    have hunderscore : Unopened ['_'] (d :: digits ++ after) := Unopened.singleton fun h =>
      ne_of_isPlain (hplain d List.mem_cons_self) (List.cons_prefix_cons.1 (List.cons_prefix_cons.1 h).2).1.symm
    exact hx.append (hunderscore.append (Unopened.of_plain hplain after))

end IsBody

/-- A neutralized text holds a marker exactly if the text forges one. -/
theorem exists_marker_neutralizeChars_iff {s : List Char} :
    (∃ marker, IsMarker marker ∧ marker <:+: neutralizeChars s) ↔ Forges s := by
  constructor
  · rintro ⟨marker, ⟨body, hbody, rfl⟩, before, rest, hsplit⟩
    have hopens : neutralizeChars s = before ++ (opening ++ (body ++ closing ++ rest)) := by
      rw [← hsplit]
      simp
    obtain ⟨first, count, after, rfl, hfirst, hrest⟩ := exists_tails_of_neutralizeChars_eq hopens
    have hword : '&' ∉ body ++ closing := by
      rw [List.mem_append, not_or]
      exact ⟨hbody.not_mem, by decide⟩
    obtain ⟨after, rfl, -, hunopened⟩ := exists_of_neutralizeChars_eq hword hrest.symm
    exact ⟨first, count, body, after, rfl, hfirst, hbody, hunopened.of_suffix (List.suffix_append _ _)⟩
  · rintro ⟨first, count, body, after, rfl, hfirst, hbody, hclosing⟩
    have hafter : ¬openingTail <+: body ++ closing ++ after := by
      intro h
      obtain ⟨c, rest, rfl, hc⟩ := hbody.exists_cons
      exact ne_of_isPlain hc (List.cons_prefix_cons.1 h).1.symm
    obtain ⟨before, hbefore⟩ := exists_neutralizeChars_eq hfirst hafter count
    refine ⟨opening ++ body ++ closing, ⟨body, hbody, rfl⟩, before, neutralizeChars after, ?_⟩
    rw [hbefore, neutralizeChars_append ((hbody.unopened _).append hclosing)]
    simp

/-- No marker is found in a neutralized text exactly if the text does not forge one. -/
theorem markersIn_neutralizeChars_eq_nil_iff {s : List Char} : markersIn (neutralizeChars s) = [] ↔ ¬Forges s := by
  rw [markersIn_eq_nil_iff, ← exists_marker_neutralizeChars_iff]
  simp only [not_exists, not_and]

/-! ## Text after a marker -/

/-- Whether a text could make up an opening with the end of a marker before it. -/
def Continues (s : List Char) : Prop := ['_'] <+: s ∨ "RUXY_SV_".toList <+: s

instance : DecidablePred Continues := fun s => inferInstanceAs (Decidable (['_'] <+: s ∨ "RUXY_SV_".toList <+: s))

/-- The first character of a neutralized text is replaced if the text could make up an opening with the end of a marker. -/
theorem neutralizeAfterMarker_eq (escaped : String) :
    (¬Continues (neutralizeChars escaped.toList) ∧
        (neutralizeAfterMarker escaped).toList = neutralizeChars escaped.toList) ∨
      Continues (neutralizeChars escaped.toList) ∧ ∃ c rest reference,
        neutralizeChars escaped.toList = c :: rest ∧ (neutralizeAfterMarker escaped).toList = reference ++ rest ∧
          ((c = '_' ∧ reference = "&#95;".toList) ∨ (c = 'R' ∧ reference = "&#82;".toList)) := by
  unfold neutralizeAfterMarker Continues
  simp only [String.toList_ofList]
  split
  · rename_i rest heq
    rw [heq]
    exact Or.inr ⟨Or.inl ⟨rest, rfl⟩, '_', rest, _, rfl, rfl, Or.inl ⟨rfl, rfl⟩⟩
  · rename_i rest heq
    rw [heq]
    split
    · rename_i hmore
      have hcontinues : "RUXY_SV_".toList <+: 'R' :: rest :=
        List.cons_prefix_cons.2 ⟨rfl, List.isPrefixOf_iff_prefix.1 hmore⟩
      exact Or.inr ⟨Or.inr hcontinues, 'R', rest, _, rfl, rfl, Or.inr ⟨rfl, rfl⟩⟩
    · rename_i hmore
      refine Or.inl ⟨not_or.2 ⟨fun h => absurd (List.cons_prefix_cons.1 h).1 (by decide), fun h => hmore ?_⟩, rfl⟩
      exact List.isPrefixOf_iff_prefix.2 (List.cons_prefix_cons.1 h).2
  · rename_i hunderscore hletter
    refine Or.inl ⟨not_or.2 ⟨?_, ?_⟩, rfl⟩
    · rintro ⟨rest, hrest⟩
      exact hunderscore rest hrest.symm
    · rintro ⟨rest, hrest⟩
      exact hletter _ hrest.symm

/-- Then it cannot make up an opening with the end of a marker any more. -/
theorem not_continues_neutralizeAfterMarker (escaped : String) : ¬Continues (neutralizeAfterMarker escaped).toList := by
  have hampersand : ∀ s, ¬Continues ('&' :: s) := by
    rintro s (hin | hin)
    · exact absurd (List.cons_prefix_cons.1 hin).1 (by decide)
    · exact absurd (List.cons_prefix_cons.1 hin).1 (by decide)
  rcases neutralizeAfterMarker_eq escaped with ⟨hnone, heq⟩ | ⟨-, c, rest, reference, -, heq, ⟨-, rfl⟩ | ⟨-, rfl⟩⟩
  · rwa [heq]
  · rw [heq]
    exact hampersand _
  · rw [heq]
    exact hampersand _

/-- What stands for the replaced character holds no underscore. -/
theorem neutralizeAfterMarker_cases (escaped : String) :
    (neutralizeAfterMarker escaped).toList = neutralizeChars escaped.toList ∨
      ∃ c rest reference, neutralizeChars escaped.toList = c :: rest ∧
        (neutralizeAfterMarker escaped).toList = reference ++ rest ∧ '_' ∉ reference := by
  rcases neutralizeAfterMarker_eq escaped with ⟨-, heq⟩ | ⟨-, c, rest, reference, hchars, heq, ⟨-, rfl⟩ | ⟨-, rfl⟩⟩
  · exact Or.inl heq
  · exact Or.inr ⟨c, rest, _, hchars, heq, by decide⟩
  · exact Or.inr ⟨c, rest, _, hchars, heq, by decide⟩

/-- A word without underscores in front of a text adds no marker. -/
theorem markersIn_append_of_not_mem {word : List Char} (h : '_' ∉ word) (s : List Char) :
    markersIn (word ++ s) = markersIn s := by
  induction word with
  | nil => rfl
  | cons c word ih =>
    rw [List.mem_cons, not_or] at h
    rw [List.cons_append, markersIn_cons_of_ne (Ne.symm h.1), ih h.2]

/-- The replacement neither makes nor breaks a marker: none starts where the text does. -/
theorem markersIn_neutralizeAfterMarker (escaped : String) :
    markersIn (neutralizeAfterMarker escaped).toList = markersIn (neutralizeChars escaped.toList) := by
  rcases neutralizeAfterMarker_cases escaped with heq | ⟨c, rest, reference, hchars, heq, hreference⟩
  · rw [heq]
  · have hnone : lengthAt? (c :: rest) = none := by
      cases hlength : lengthAt? (c :: rest) with
      | none => rfl
      | some n =>
        obtain ⟨marker, others, hm, hsplit, -⟩ := lengthAt?_eq_some_iff.1 hlength
        obtain ⟨tail, rfl⟩ := hm.opens
        refine absurd ?_ (not_opening_prefix_neutralizeChars escaped.toList)
        rw [hchars, hsplit, List.append_assoc]
        exact List.prefix_append _ _
    rw [heq, hchars, markersIn_append_of_not_mem hreference, markersIn_cons_of_none hnone]

end Prebake.Marker
