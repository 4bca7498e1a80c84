import Mathlib.Data.List.Infix
import Mathlib.Data.List.TakeWhile
import Prebake.Markup.Marker

/-!
# Scanning for markers

A marker is the opening, a body and the closing (`IsMarker`), and a scan finds exactly such words, from left to right. The
scan of a text is put together from those of its parts wherever the parts meet at a character that no marker holds
(`markersIn_append_cons`), and wherever a part without an opening meets a marker (`markersIn_quiet_append_marker`): the
opening overlaps itself by a single character, and no body starts with that one.
-/

namespace Prebake.Marker

/-- The opening after its first character. With the last character of another opening in front it is an opening. -/
def openingTail : List Char := "_RUXY_SV_".toList

/-- What may stand between the opening and the closing of a marker. -/
def IsBody (body : List Char) : Prop :=
  (body ≠ [] ∧ ∀ c ∈ body, isPlain c = true) ∨
    ∃ digits, body = 'x' :: '_' :: digits ∧ digits.length = digestLength ∧ ∀ c ∈ digits, isDigestDigit c = true

/-- A whole marker. -/
def IsMarker (text : List Char) : Prop := ∃ body, IsBody body ∧ text = opening ++ body ++ closing

/-- The characters of markers. -/
def isMarkerChar (c : Char) : Bool := isPlain c || c == '_'

theorem opening_eq : opening = '_' :: openingTail := rfl

theorem closing_eq : closing = ['_', '_'] := rfl

/-- The digits of digests are letters and digits. -/
theorem isPlain_of_isDigestDigit {c : Char} (h : isDigestDigit c = true) : isPlain c = true := by
  simp only [isDigestDigit, Bool.or_eq_true, Bool.and_eq_true, decide_eq_true_eq] at h
  show ((c.isUpper || c.isLower) || c.isDigit) = true
  rcases h with hdigit | ⟨hlow, hhigh⟩
  · rw [hdigit, Bool.or_true]
  · have hlower : c.isLower = true := by
      show (decide (c.val ≥ 97) && decide (c.val ≤ 122)) = true
      rw [Bool.and_eq_true, decide_eq_true_eq, decide_eq_true_eq]
      exact ⟨hlow, UInt32.le_trans hhigh (by decide)⟩
    rw [hlower, Bool.or_true, Bool.true_or]

theorem ne_of_isPlain {c : Char} (h : isPlain c = true) : c ≠ '_' := by
  rintro rfl
  exact absurd h (by decide)

/-! ## Bodies -/

namespace IsBody

variable {body : List Char}

theorem isMarkerChar (h : IsBody body) : ∀ c ∈ body, Marker.isMarkerChar c = true := by
  have hplain : ∀ c, isPlain c = true → Marker.isMarkerChar c = true := fun c hc => by
    rw [Marker.isMarkerChar, hc, Bool.true_or]
  rcases h with ⟨-, hbody⟩ | ⟨digits, rfl, -, hdigits⟩
  · exact fun c hc => hplain c (hbody c hc)
  · intro c hc
    rcases List.mem_cons.1 hc with rfl | hc
    · rfl
    · rcases List.mem_cons.1 hc with rfl | hc
      · rfl
      · exact hplain c (isPlain_of_isDigestDigit (hdigits c hc))

/-- A body starts with a letter or a digit. -/
theorem exists_cons (h : IsBody body) : ∃ c rest, body = c :: rest ∧ isPlain c = true := by
  rcases h with ⟨hne, hbody⟩ | ⟨digits, rfl, -, -⟩
  · obtain ⟨c, rest, rfl⟩ := List.exists_cons_of_ne_nil hne
    exact ⟨c, rest, rfl, hbody c List.mem_cons_self⟩
  · exact ⟨'x', '_' :: digits, rfl, by decide⟩

end IsBody

/-! ## The length of a marker -/

/-- What is left behind the longest start with a property. -/
theorem drop_takeWhile (p : Char → Bool) (s : List Char) : s.drop (s.takeWhile p).length = s.dropWhile p := by
  have hsplit : (s.takeWhile p ++ s.dropWhile p).drop (s.takeWhile p).length = s.dropWhile p := List.drop_left' rfl
  rwa [List.takeWhile_append_dropWhile] at hsplit

/-- The plain characters of a body are all that are there: a closing starts with another one. -/
theorem plainLength?_eq_some_iff {s : List Char} {n : Nat} : plainLength? s = some n ↔
    ∃ body rest, body ≠ [] ∧ (∀ c ∈ body, isPlain c = true) ∧ s = body ++ closing ++ rest ∧ n = body.length := by
  simp only [plainLength?, drop_takeWhile, Option.ite_none_right_eq_some, Bool.and_eq_true, Bool.not_eq_true',
    List.isEmpty_eq_false_iff, List.isPrefixOf_iff_prefix, Option.some.injEq]
  constructor
  · rintro ⟨⟨hne, rest, hrest⟩, rfl⟩
    refine ⟨s.takeWhile isPlain, rest, hne, fun c hc => List.mem_takeWhile_imp hc, ?_, rfl⟩
    rw [List.append_assoc, hrest, List.takeWhile_append_dropWhile]
  · rintro ⟨body, rest, hne, hbody, rfl, rfl⟩
    have htake : (body ++ closing ++ rest).takeWhile isPlain = body := by
      rw [List.append_assoc, List.takeWhile_append_of_pos hbody]
      exact List.append_nil _
    have hdrop : (body ++ closing ++ rest).dropWhile isPlain = closing ++ rest := by
      rw [List.append_assoc, List.dropWhile_append_of_pos hbody]
      rfl
    rw [htake, hdrop]
    exact ⟨⟨hne, List.prefix_append _ _⟩, rfl⟩

/-- A digest is recognized by the `x` and the underscore before it, by its length and by the closing behind it. -/
theorem digestLength?_eq_some_iff {s : List Char} {n : Nat} : digestLength? s = some n ↔
    ∃ digits rest, digits.length = digestLength ∧ (∀ c ∈ digits, isDigestDigit c = true) ∧
      s = 'x' :: '_' :: digits ++ closing ++ rest ∧ n = 2 + digestLength := by
  simp only [digestLength?, Option.ite_none_right_eq_some, Bool.and_eq_true, beq_iff_eq, List.all_eq_true,
    List.isPrefixOf_iff_prefix, Option.some.injEq]
  constructor
  · rintro ⟨⟨⟨⟨⟨after, rfl⟩, hlength⟩, hdigits⟩, rest, hrest⟩, rfl⟩
    refine ⟨after.take digestLength, rest, hlength, hdigits, ?_, rfl⟩
    have hdrop : after.drop digestLength = closing ++ rest := hrest.symm
    show 'x' :: '_' :: after = 'x' :: '_' :: (after.take digestLength ++ closing ++ rest)
    rw [List.append_assoc, ← hdrop, List.take_append_drop]
  · rintro ⟨digits, rest, hlength, hdigits, rfl, rfl⟩
    have htake : (('x' :: '_' :: digits ++ closing ++ rest).drop 2).take digestLength = digits := by
      show (digits ++ closing ++ rest).take digestLength = digits
      rw [List.append_assoc, List.take_left' hlength]
    have hdrop : ('x' :: '_' :: digits ++ closing ++ rest).drop (2 + digestLength) = closing ++ rest := by
      rw [← List.drop_drop]
      show (digits ++ closing ++ rest).drop digestLength = closing ++ rest
      rw [List.append_assoc, List.drop_left' hlength]
    rw [htake, hdrop]
    exact ⟨⟨⟨⟨⟨_, rfl⟩, hlength⟩, hdigits⟩, List.prefix_append _ _⟩, rfl⟩

/-- A written digest is not taken for plain characters. -/
theorem plainLength?_digest {digits rest : List Char} (hlength : digits.length = digestLength)
    (hdigits : ∀ c ∈ digits, isDigestDigit c = true) :
    plainLength? ('x' :: '_' :: digits ++ closing ++ rest) = none := by
  cases digits with
  | nil => cases hlength
  | cons c digits =>
    have hc := ne_of_isPlain (isPlain_of_isDigestDigit (hdigits c List.mem_cons_self))
    have htake : ('x' :: '_' :: c :: digits ++ closing ++ rest).takeWhile isPlain = ['x'] := rfl
    rw [plainLength?, htake]
    refine if_neg ?_
    simp [closing_eq, hc.symm]

/-- There is a marker at the start of a text exactly if the text starts with the opening, a body and the closing. -/
theorem lengthAt?_eq_some_iff {s : List Char} {n : Nat} : lengthAt? s = some n ↔
    ∃ marker rest, IsMarker marker ∧ s = marker ++ rest ∧ n = marker.length := by
  constructor
  · intro h
    unfold lengthAt? at h
    split at h
    · rename_i hopens
      obtain ⟨after, rfl⟩ := List.isPrefixOf_iff_prefix.1 hopens
      rw [List.drop_left' rfl, Option.map_eq_some_iff] at h
      obtain ⟨m, hm, rfl⟩ := h
      rw [Option.or_eq_some_iff] at hm
      rcases hm with hm | ⟨-, hm⟩
      · obtain ⟨body, rest, hne, hbody, rfl, rfl⟩ := plainLength?_eq_some_iff.1 hm
        exact ⟨opening ++ body ++ closing, rest, ⟨body, Or.inl ⟨hne, hbody⟩, rfl⟩, by simp, by simp; omega⟩
      · obtain ⟨digits, rest, hlength, hdigits, rfl, rfl⟩ := digestLength?_eq_some_iff.1 hm
        refine ⟨opening ++ ('x' :: '_' :: digits) ++ closing, rest, ⟨_, Or.inr ⟨digits, rfl, hlength, hdigits⟩, rfl⟩,
          by simp, by simp [hlength]; omega⟩
    · cases h
  · rintro ⟨marker, rest, ⟨body, hbody, rfl⟩, rfl, rfl⟩
    -- a body of letters and digits is looked for first, and no digest is mistaken for one
    have hlength : ((plainLength? (body ++ closing ++ rest)).or (digestLength? (body ++ closing ++ rest))) =
        some body.length := by
      rcases hbody with ⟨hne, hplain⟩ | ⟨digits, rfl, hcount, hdigits⟩
      · rw [plainLength?_eq_some_iff.2 ⟨body, rest, hne, hplain, rfl, rfl⟩, Option.some_or]
      · rw [plainLength?_digest hcount hdigits, Option.none_or]
        refine digestLength?_eq_some_iff.2 ⟨digits, rest, hcount, hdigits, rfl, ?_⟩
        rw [← hcount, List.length_cons, List.length_cons]
        omega
    have hsplit : opening ++ body ++ closing ++ rest = opening ++ (body ++ closing ++ rest) := by simp
    rw [hsplit, lengthAt?, if_pos (List.isPrefixOf_iff_prefix.2 (List.prefix_append _ _)), List.drop_left' rfl]
    dsimp only
    rw [hlength]
    simp [Nat.add_assoc]

/-- A marker is recognized whatever follows it. -/
theorem IsMarker.lengthAt?_append {marker : List Char} (h : IsMarker marker) (rest : List Char) :
    lengthAt? (marker ++ rest) = some marker.length :=
  lengthAt?_eq_some_iff.2 ⟨marker, rest, h, rfl, rfl⟩

/-- There is no marker at the start of a text exactly if the text starts with none. -/
theorem lengthAt?_eq_none_iff {s : List Char} : lengthAt? s = none ↔ ∀ marker, IsMarker marker → ¬marker <+: s := by
  constructor
  · rintro h marker hm ⟨rest, rfl⟩
    rw [hm.lengthAt?_append] at h
    cases h
  · intro h
    cases hlength : lengthAt? s with
    | none => rfl
    | some n =>
      obtain ⟨marker, rest, hm, rfl, -⟩ := lengthAt?_eq_some_iff.1 hlength
      exact absurd (List.prefix_append marker rest) (h marker hm)

theorem isMarkerChar_opening : ∀ c ∈ opening, isMarkerChar c = true := List.all_eq_true.1 (by decide)

theorem isMarkerChar_closing : ∀ c ∈ closing, isMarkerChar c = true := List.all_eq_true.1 (by decide)

namespace IsMarker

variable {marker : List Char}

theorem isMarkerChar (h : IsMarker marker) : ∀ c ∈ marker, Marker.isMarkerChar c = true := by
  obtain ⟨body, hbody, rfl⟩ := h
  intro c hc
  rw [List.mem_append, List.mem_append] at hc
  rcases hc with (hc | hc) | hc
  · exact isMarkerChar_opening c hc
  · exact hbody.isMarkerChar c hc
  · exact isMarkerChar_closing c hc

theorem opens (h : IsMarker marker) : ∃ rest, marker = opening ++ rest := by
  obtain ⟨body, -, rfl⟩ := h
  exact ⟨body ++ closing, by simp⟩

theorem ne_nil (h : IsMarker marker) : marker ≠ [] := by
  obtain ⟨rest, rfl⟩ := h.opens
  exact nofun

end IsMarker

/-! ## The markers of slots -/

/-- A digest has 32 bytes. -/
theorem length_digest (bytes : List UInt8) : (Sha256.digest bytes).length = 32 := by
  simp [Sha256.digest, Sha256.bigEndian]

/-- Each byte is written in two digits. -/
theorem length_flatMap_hexByte (bytes : List UInt8) : (bytes.flatMap Sha256.hexByte).length = 2 * bytes.length := by
  induction bytes with
  | nil => rfl
  | cons b bytes ih =>
    rw [List.flatMap_cons, List.length_append, ih, List.length_cons]
    have : (Sha256.hexByte b).length = 2 := rfl
    omega

/-- The digest in a marker has as many digits as a scan looks for. -/
theorem length_hexDigest (text : String) : (Sha256.hexDigest text (digestLength / 2)).length = digestLength := by
  rw [Sha256.hexDigest, length_flatMap_hexByte, List.length_take, length_digest]
  rfl

/-- A byte is written in digits of digests. -/
theorem isDigestDigit_hexByte (b : UInt8) : ∀ c ∈ Sha256.hexByte b, isDigestDigit c = true := by
  have hdigit : ∀ n < 16, isDigestDigit (if n < 10 then Char.ofNat (48 + n) else Char.ofNat (87 + n)) = true := by
    decide
  have hb : b.toNat < 256 := b.toNat_lt
  intro c hc
  rcases List.mem_pair.1 hc with rfl | rfl
  · exact hdigit (b.toNat / 16) (by omega)
  · exact hdigit (b.toNat % 16) (by omega)

/-- The marker of a slot is one, whatever the slot. -/
theorem isMarker_ofSlot (slot : String) : IsMarker (ofSlot slot).toList := by
  unfold ofSlot
  dsimp only
  rw [String.toList_ofList]
  refine ⟨_, ?_, rfl⟩
  split
  · rename_i h
    rw [Bool.and_eq_true, Bool.not_eq_true', List.isEmpty_eq_false_iff, List.all_eq_true] at h
    exact Or.inl h
  · refine Or.inr ⟨_, rfl, length_hexDigest slot, fun c hc => ?_⟩
    obtain ⟨b, -, hc⟩ := List.mem_flatMap.1 hc
    exact isDigestDigit_hexByte b c hc

/-! ## Scanning -/

/-- A marker at the beginning is the first piece. -/
theorem pieces_append_of_isMarker {marker : List Char} (h : IsMarker marker) (rest : List Char) :
    pieces (marker ++ rest) = .marker (String.ofList marker) :: pieces rest := by
  have hlength := h.lengthAt?_append rest
  rw [pieces]
  split
  · rename_i n hn
    obtain rfl : n = marker.length := Option.some.inj (hn.symm.trans hlength)
    rw [List.take_left' rfl, List.drop_left' rfl]
  · rename_i hnone
    rw [hlength] at hnone
    cases hnone

/-- A character with which no marker starts is a piece of its own. -/
theorem pieces_cons_of_none {c : Char} {s : List Char} (h : lengthAt? (c :: s) = none) :
    pieces (c :: s) = .char c :: pieces s := by
  rw [pieces]
  split
  · rename_i n hn
    rw [hn] at h
    cases h
  · rfl

@[simp] theorem pieces_nil : pieces [] = [] := by
  rw [pieces]
  rfl

/-- The markers in a text, in order and with repetitions. -/
def markersIn (s : List Char) : List String :=
  (pieces s).filterMap fun piece => match piece with
    | .marker m => some m
    | .char _ => none

theorem scan_eq (text : String) : scan text = markersIn text.toList := rfl

@[simp] theorem markersIn_nil : markersIn [] = [] := by
  rw [markersIn, pieces_nil]
  rfl

/-- A marker at the beginning is found first. -/
theorem markersIn_append_of_isMarker {marker : List Char} (h : IsMarker marker) (rest : List Char) :
    markersIn (marker ++ rest) = String.ofList marker :: markersIn rest := by
  rw [markersIn, pieces_append_of_isMarker h]
  rfl

/-- A character with which no marker starts is passed over. -/
theorem markersIn_cons_of_none {c : Char} {s : List Char} (h : lengthAt? (c :: s) = none) :
    markersIn (c :: s) = markersIn s := by
  rw [markersIn, pieces_cons_of_none h]
  rfl

/-- No marker starts with another character than that of the opening. -/
theorem lengthAt?_cons_of_ne {c : Char} (h : c ≠ '_') (s : List Char) : lengthAt? (c :: s) = none := by
  refine lengthAt?_eq_none_iff.2 fun marker hm hstart => ?_
  obtain ⟨body, rfl⟩ := hm.opens
  exact h (List.cons_prefix_cons.1 hstart).1.symm

/-- No marker starts with anything but an underscore. -/
theorem markersIn_cons_of_ne {c : Char} (h : c ≠ '_') (s : List Char) : markersIn (c :: s) = markersIn s :=
  markersIn_cons_of_none (lengthAt?_cons_of_ne h s)

/-- A text is scanned by taking markers off its start, and single characters where there is none. -/
theorem scan_induction {motive : List Char → Prop} (hnil : motive [])
    (hmarker : ∀ marker rest, IsMarker marker → motive rest → motive (marker ++ rest))
    (hchar : ∀ c rest, lengthAt? (c :: rest) = none → motive rest → motive (c :: rest)) (s : List Char) : motive s := by
  induction s using pieces.induct with
  | case1 s n h ih =>
    obtain ⟨marker, rest, hm, rfl, rfl⟩ := lengthAt?_eq_some_iff.1 h
    rw [List.drop_left' rfl] at ih
    exact hmarker marker rest hm ih
  | case2 h => exact hnil
  | case3 c rest h ih => exact hchar c rest h ih

/-- A scan finds nothing exactly if no marker stands anywhere in the text. -/
theorem markersIn_eq_nil_iff {s : List Char} : markersIn s = [] ↔ ∀ marker, IsMarker marker → ¬marker <:+: s := by
  induction s using scan_induction with
  | hnil =>
    refine ⟨fun _ marker hm hin => hm.ne_nil (List.eq_nil_of_infix_nil hin), fun _ => markersIn_nil⟩
  | hmarker marker rest hm ih =>
    rw [markersIn_append_of_isMarker hm]
    refine ⟨nofun, fun h => absurd (List.prefix_append marker rest).isInfix (h marker hm)⟩
  | hchar c rest h ih =>
    rw [markersIn_cons_of_none h, ih]
    refine ⟨fun hrest marker hm hin => ?_, fun hall marker hm hin => hall marker hm (hin.trans (List.suffix_cons c rest).isInfix)⟩
    rcases List.infix_cons_iff.1 hin with hstart | hin
    · exact lengthAt?_eq_none_iff.1 h marker hm hstart
    · exact hrest marker hm hin

/-- A word that starts a text and does not hold a character of it ends before that character. -/
theorem prefix_of_prefix_append_cons {c : Char} {word before after : List Char} (hc : c ∉ word)
    (h : word <+: before ++ c :: after) : word <+: before := by
  rcases List.prefix_or_prefix_of_prefix h (List.prefix_append before (c :: after)) with hword | ⟨rest, rfl⟩
  · exact hword
  · rw [List.prefix_append_right_inj] at h
    cases rest with
    | nil => rw [List.append_nil]
    | cons d rest =>
      obtain ⟨rfl, -⟩ := List.cons_prefix_cons.1 h
      exact absurd (List.mem_append_right _ List.mem_cons_self) hc

/-- What no marker holds is no underscore. -/
theorem ne_of_not_isMarkerChar {c : Char} (h : isMarkerChar c = false) : c ≠ '_' := by
  rintro rfl
  exact absurd h (by decide)

/-- At a character that no marker holds a text can be taken apart. -/
theorem markersIn_append_cons {c : Char} (hc : isMarkerChar c = false) (before after : List Char) :
    markersIn (before ++ c :: after) = markersIn before ++ markersIn after := by
  have hne := ne_of_not_isMarkerChar hc
  induction before using scan_induction with
  | hnil => rw [List.nil_append, markersIn_cons_of_ne hne, markersIn_nil, List.nil_append]
  | hmarker marker rest hm ih =>
    rw [List.append_assoc, markersIn_append_of_isMarker hm, markersIn_append_of_isMarker hm, ih, List.cons_append]
  | hchar d rest h ih =>
    have hlength : lengthAt? (d :: (rest ++ c :: after)) = none := by
      refine lengthAt?_eq_none_iff.2 fun marker hm hstart => ?_
      have hnot : c ∉ marker := fun hin => by
        rw [hm.isMarkerChar c hin] at hc
        cases hc
      have hshort : marker <+: d :: rest := prefix_of_prefix_append_cons hnot hstart
      exact lengthAt?_eq_none_iff.1 h marker hm hshort
    rw [markersIn_cons_of_none h, List.cons_append, markersIn_cons_of_none hlength, ih]

/-- A text is bounded if no marker that starts before it can reach into it. -/
def Bounded (s : List Char) : Prop := ∀ c ∈ s.head?, isMarkerChar c = false

namespace Bounded

variable {s t : List Char}

theorem nil : Bounded [] := nofun

/-- A text that starts with a character which no marker holds is bounded. -/
theorem cons {c : Char} (h : isMarkerChar c = false) (s : List Char) : Bounded (c :: s) := by
  rintro _ ⟨⟩
  exact h

/-- Two bounded texts side by side are bounded: the second one matters where the first is empty. -/
theorem append (hs : Bounded s) (ht : Bounded t) : Bounded (s ++ t) := by
  cases s with
  | nil => exact ht
  | cons c s => exact .cons (hs c rfl) (s ++ t)

/-- A bounded text is scanned by itself, whatever stands before it. -/
theorem markersIn_append (h : Bounded t) (s : List Char) : markersIn (s ++ t) = markersIn s ++ markersIn t := by
  cases t with
  | nil => rw [List.append_nil, markersIn_nil, List.append_nil]
  | cons c t =>
    have hc := h c rfl
    rw [markersIn_append_cons hc, markersIn_cons_of_ne (ne_of_not_isMarkerChar hc)]

end Bounded

/-! ## Texts without an opening -/

/-- A text in which no opening stands. -/
def Quiet (s : List Char) : Prop := ¬opening <:+: s

namespace Quiet

variable {s : List Char}

/-- Without an opening there is no marker. -/
theorem markersIn_eq_nil (h : Quiet s) : markersIn s = [] := by
  refine markersIn_eq_nil_iff.2 fun marker hm hin => ?_
  obtain ⟨rest, rfl⟩ := hm.opens
  exact h ((List.prefix_append opening rest).isInfix.trans hin)

theorem of_cons {c : Char} (h : Quiet (c :: s)) : Quiet s := fun hin => h (hin.trans (List.suffix_cons c s).isInfix)

/-- A text that is shorter than an opening has none. -/
theorem of_length_lt (h : s.length < opening.length) : Quiet s := fun hin => Nat.not_lt.2 hin.length_le h

end Quiet

/-- The opening overlaps itself in no other way than by its last character. -/
theorem eq_nine_of_opening_drop {n : Nat} (hpos : 0 < n) (hlt : n < 10) (h : opening.drop n <+: opening) : n = 9 := by
  have hall : ∀ n < 10, 0 < n → (opening.drop n).isPrefixOf opening = true → n = 9 := by decide
  exact hall n hlt hpos (List.isPrefixOf_iff_prefix.2 h)

/-- If one opening starts before another one and does not end before it, it ends with the first character of the other. -/
theorem opening_eq_append_of_overlap {s rest : List Char} (hs : ¬opening <+: s) (hne : s ≠ [])
    (h : opening <+: s ++ (opening ++ rest)) : opening = s ++ ['_'] := by
  rcases List.prefix_or_prefix_of_prefix h (List.prefix_append s _) with hstart | ⟨middle, hmiddle⟩
  · exact absurd hstart hs
  · have hlength : s.length + middle.length = 10 := by rw [← List.length_append, hmiddle]; rfl
    have hpos : 0 < s.length := List.length_pos_iff.2 hne
    have hlt : s.length < 10 := by
      rcases Nat.lt_or_ge s.length 10 with hlt | hge
      · exact hlt
      · have hnil : middle = [] := List.eq_nil_of_length_eq_zero (by omega)
        rw [hnil, List.append_nil] at hmiddle
        exact absurd (hmiddle ▸ List.prefix_refl s) hs
    have hdrop : opening.drop s.length = middle := by rw [← hmiddle, List.drop_left' rfl]
    rw [← hmiddle, List.prefix_append_right_inj, hmiddle] at h
    have hoverlap : middle <+: opening := List.prefix_of_prefix_length_le h (List.prefix_append _ _) (by
      have : opening.length = 10 := rfl
      omega)
    have hnine := eq_nine_of_opening_drop hpos hlt (hdrop ▸ hoverlap)
    rw [hnine] at hdrop
    rw [← hmiddle, ← hdrop]
    rfl

/-- Where a text without an opening is followed by a marker, no marker starts earlier. -/
theorem lengthAt?_quiet_append_marker {c : Char} {s marker : List Char} (hs : Quiet (c :: s)) (hm : IsMarker marker)
    (rest : List Char) : lengthAt? (c :: s ++ marker ++ rest) = none := by
  refine lengthAt?_eq_none_iff.2 ?_
  rintro found ⟨body, hbody, rfl⟩ ⟨others, heq⟩
  obtain ⟨tail, rfl⟩ := hm.opens
  have hsplit : c :: s ++ (opening ++ (tail ++ rest)) = opening ++ (body ++ (closing ++ others)) := by
    simpa using heq.symm
  have hstart : ¬opening <+: c :: s := fun hin => hs hin.isInfix
  have hopening := opening_eq_append_of_overlap hstart (List.cons_ne_nil c s) ⟨_, hsplit.symm⟩
  -- what follows the opening goes on after the first character of the marker, but no body starts like that
  conv_rhs at hsplit => rw [hopening]
  rw [List.append_assoc, List.append_cancel_left_eq] at hsplit
  obtain ⟨d, others', rfl, hd⟩ := hbody.exists_cons
  exact ne_of_isPlain hd (List.cons.inj (List.cons.inj hsplit).2).1.symm

/-- A marker is found right after a text without an opening. -/
theorem markersIn_quiet_append_marker {s marker : List Char} (hs : Quiet s) (hm : IsMarker marker) (rest : List Char) :
    markersIn (s ++ marker ++ rest) = String.ofList marker :: markersIn rest := by
  induction s with
  | nil => exact markersIn_append_of_isMarker hm rest
  | cons c s ih =>
    have hnone := lengthAt?_quiet_append_marker hs hm rest
    rw [List.cons_append, List.cons_append] at hnone ⊢
    rw [markersIn_cons_of_none hnone, ih hs.of_cons]

end Prebake.Marker
