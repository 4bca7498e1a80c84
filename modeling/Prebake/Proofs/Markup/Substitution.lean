import Prebake.Proofs.Markup.Scan

/-!
# Substitution of markers

A scan and a substitution take a text apart in the same way: into markers and what stands before, between and after them, where
each marker is the first one that starts after the one before it. There is exactly one such split of a text
(`Split.ofText_text`, `Split.isLeftmost_ofText`), and a substitution only writes the text of a slot where the split has its
marker (`Manifest.substitute_eq_replaced`), so what it writes is not read again.
-/

namespace Prebake.Marker

/-! ## Texts before markers -/

/-- No marker starts in a text that something else follows, not even one that reaches into what follows. -/
def NoneStarts (text after : List Char) : Prop :=
  ∀ suffix, suffix <:+ text → suffix ≠ [] → ∀ marker, IsMarker marker → ¬marker <+: suffix ++ after

theorem noneStarts_nil (after : List Char) : NoneStarts [] after :=
  fun _ hsuffix hne => absurd (List.suffix_nil.1 hsuffix) hne

/-- No marker starts in a text if none starts with its first character and none in the rest. -/
theorem noneStarts_cons_iff {c : Char} {text after : List Char} :
    NoneStarts (c :: text) after ↔ lengthAt? (c :: (text ++ after)) = none ∧ NoneStarts text after := by
  rw [lengthAt?_eq_none_iff]
  constructor
  · intro h
    refine ⟨fun marker => h (c :: text) (List.suffix_refl _) (List.cons_ne_nil c text) marker, fun suffix hsuffix => ?_⟩
    exact h suffix (hsuffix.trans (List.suffix_cons c text))
  · rintro ⟨hstart, htext⟩ suffix hsuffix hne
    rcases List.suffix_cons_iff.1 hsuffix with rfl | hsuffix
    · exact hstart
    · exact htext suffix hsuffix hne

/-- The characters of a text in which no marker starts are pieces of their own. -/
theorem NoneStarts.pieces_append {text after : List Char} (h : NoneStarts text after) :
    pieces (text ++ after) = text.map .char ++ pieces after := by
  induction text with
  | nil => rfl
  | cons c text ih =>
    obtain ⟨hnone, htext⟩ := noneStarts_cons_iff.1 h
    rw [List.cons_append, pieces_cons_of_none hnone, ih htext, List.map_cons, List.cons_append]

/-! ## Splits -/

/-- A text taken apart into markers and the gaps around them. -/
inductive Split where
  | last (gap : String)
  | marked (gap marker : String) (rest : Split)
deriving DecidableEq, Repr

namespace Split

/-- The markers of a split, in order. -/
def markers : Split → List String
  | last _ => []
  | marked _ marker rest => marker :: rest.markers

/-- The text that has something else in place of each marker. -/
def replaced (write : String → String) : Split → String
  | last gap => gap
  | marked gap marker rest => gap ++ write marker ++ rest.replaced write

/-- The text that was taken apart. -/
def text (split : Split) : String := split.replaced id

/-- Every marker is the first one to start after the one before it, and none starts after the last one. -/
def IsLeftmost : Split → Prop
  | last gap => NoneStarts gap.toList []
  | marked gap marker rest =>
    NoneStarts gap.toList (marker.toList ++ rest.text.toList) ∧ IsMarker marker.toList ∧ rest.IsLeftmost

/-- The split with some text in front. -/
def prepend (before : String) : Split → Split
  | last gap => last (before ++ gap)
  | marked gap marker rest => marked (before ++ gap) marker rest

/-- The split of a text whose pieces are given. -/
def ofPieces : List Piece → Split
  | [] => last ""
  | .char c :: pieces => (ofPieces pieces).prepend (String.singleton c)
  | .marker marker :: pieces => marked "" marker (ofPieces pieces)

/-- The split of a text. -/
def ofText (text : String) : Split := ofPieces (pieces text.toList)

variable {split : Split}

@[simp] theorem markers_prepend (before : String) (split : Split) : (split.prepend before).markers = split.markers := by
  cases split <;> rfl

@[simp] theorem replaced_prepend (write : String → String) (before : String) (split : Split) :
    (split.prepend before).replaced write = before ++ split.replaced write := by
  cases split <;> simp [prepend, replaced, String.append_assoc]

@[simp] theorem prepend_empty (split : Split) : split.prepend "" = split := by
  cases split <;> simp [prepend]

theorem prepend_prepend (first second : String) (split : Split) :
    (split.prepend second).prepend first = split.prepend (first ++ second) := by
  cases split <;> simp [prepend, String.append_assoc]

/-! ### Splits of pieces -/

/-- The markers of a split are the markers among its pieces. -/
theorem markers_ofPieces (pieces : List Piece) : (ofPieces pieces).markers = pieces.filterMap fun piece => match piece with
    | .marker m => some m
    | .char _ => none := by
  induction pieces with
  | nil => rfl
  | cons piece pieces ih =>
    cases piece with
    | char c => simpa [ofPieces] using ih
    | marker m => simpa [ofPieces, markers] using ih

/-- Markers are replaced among the pieces, and characters are kept. -/
theorem replaced_ofPieces (write : String → String) (pieces : List Piece) :
    (ofPieces pieces).replaced write = String.join (pieces.map fun piece => match piece with
      | .char c => String.singleton c
      | .marker m => write m) := by
  induction pieces with
  | nil => rfl
  | cons piece pieces ih =>
    rw [List.map_cons, String.join_cons, ← ih]
    cases piece with
    | char c => exact replaced_prepend write _ _
    | marker m => simp [ofPieces, replaced]

/-- Characters in front are text in front. -/
theorem ofPieces_chars_append (gap : List Char) (pieces : List Piece) :
    ofPieces (gap.map .char ++ pieces) = (ofPieces pieces).prepend (String.ofList gap) := by
  induction gap with
  | nil => exact (prepend_empty _).symm
  | cons c gap ih =>
    rw [List.map_cons, List.cons_append, ofPieces, ih, prepend_prepend, String.ofList_cons]

/-! ### The split of a text -/

/-- A split in which every marker is the first one is the split of its text. -/
theorem IsLeftmost.ofText_text (h : split.IsLeftmost) : ofText split.text = split := by
  induction split with
  | last gap =>
    have hpieces : pieces gap.toList = gap.toList.map .char := by
      simpa using NoneStarts.pieces_append h
    have hsplit := ofPieces_chars_append gap.toList []
    rw [List.append_nil] at hsplit
    rw [ofText, text, replaced, hpieces, hsplit]
    simp [ofPieces, prepend]
  | marked gap marker rest ih =>
    obtain ⟨hgap, hmarker, hrest⟩ := h
    have htext : (marked gap marker rest).text.toList = gap.toList ++ (marker.toList ++ rest.text.toList) := by
      simp [text, replaced]
    rw [ofText, htext, hgap.pieces_append, pieces_append_of_isMarker hmarker, ofPieces_chars_append, ofPieces]
    have hofText : ofPieces (pieces rest.text.toList) = rest := ih hrest
    rw [hofText]
    simp [prepend]

/-- A character in front of which no marker starts may be put in front of a split. -/
theorem IsLeftmost.prepend {c : Char} (hnone : lengthAt? (c :: split.text.toList) = none) (h : split.IsLeftmost) :
    (split.prepend (String.singleton c)).IsLeftmost := by
  cases split with
  | last gap =>
    have hgap : NoneStarts (c :: gap.toList) [] := noneStarts_cons_iff.2 ⟨by simpa [text, replaced] using hnone, h⟩
    simpa [Split.prepend, IsLeftmost] using hgap
  | marked gap marker rest =>
    obtain ⟨hgap, hmarker, hrest⟩ := h
    have hcons : NoneStarts (c :: gap.toList) (marker.toList ++ rest.text.toList) :=
      noneStarts_cons_iff.2 ⟨by simpa [text, replaced] using hnone, hgap⟩
    exact ⟨by simpa using hcons, hmarker, hrest⟩

/-- A scan finds each marker as early as possible and leaves nothing out. -/
theorem isLeftmost_ofPieces (s : List Char) :
    (ofPieces (pieces s)).IsLeftmost ∧ (ofPieces (pieces s)).text = String.ofList s := by
  induction s using scan_induction with
  | hnil =>
    rw [pieces_nil]
    exact ⟨noneStarts_nil [], rfl⟩
  | hmarker marker rest hm ih =>
    obtain ⟨hleftmost, htext⟩ := ih
    rw [pieces_append_of_isMarker hm, ofPieces]
    refine ⟨⟨noneStarts_nil _, by simpa using hm, hleftmost⟩, ?_⟩
    rw [text] at htext
    simp [text, replaced, htext, String.ofList_append]
  | hchar c rest hnone ih =>
    obtain ⟨hleftmost, htext⟩ := ih
    rw [pieces_cons_of_none hnone, ofPieces]
    refine ⟨hleftmost.prepend (by simpa [htext] using hnone), ?_⟩
    rw [text, replaced_prepend, ← text, htext, String.ofList_cons]

/-- In the split of a text every marker is the first one. -/
theorem isLeftmost_ofText (html : String) : (ofText html).IsLeftmost := (isLeftmost_ofPieces html.toList).1

/-- The split of a text is a split of that text. -/
@[simp] theorem text_ofText (html : String) : (ofText html).text = html := by
  rw [ofText, (isLeftmost_ofPieces html.toList).2, String.ofList_toList]

end Split

end Prebake.Marker

namespace Prebake.Manifest

open Marker

/-- What is written for a marker: the text of its slot, if the manifest has the slot and the slot has a text, or else the marker
itself. -/
def replacement (manifest : Manifest) (textOf : String → Option String) (marker : String) : String :=
  match manifest.find? marker with
  | some slot =>
    match textOf slot with
    | some text => text
    | none => marker
  | none => marker

/-- A marker is replaced if it is in the manifest and its slot has a text. -/
theorem replacement_eq (manifest : Manifest) (textOf : String → Option String) (marker : String) :
    manifest.replacement textOf marker = ((manifest.find? marker).bind textOf).getD marker := by
  unfold replacement
  cases manifest.find? marker with
  | none => rfl
  | some slot => cases htext : textOf slot <;> simp [htext]

/-- A substitution writes in place of the markers of the split, and nowhere else. -/
theorem substitute_eq_replaced (manifest : Manifest) (textOf : String → Option String) (html : String) :
    manifest.substitute textOf html = (Split.ofText html).replaced (manifest.replacement textOf) := by
  rw [Split.ofText, Split.replaced_ofPieces]
  simp only [replacement_eq]
  rfl

/-- A text can be taken apart in exactly one way so that every marker is the first one after the one before it. The markers of
this split are those that a scan finds, and a substitution writes in place of them, in one pass: the gaps stay as they are, and
so does the whole text if no slot has a text. -/
theorem substitute_splits (manifest : Manifest) (textOf : String → Option String) (html : String) :
    ∃ split : Split, (split.IsLeftmost ∧ split.text = html) ∧
      (∀ other : Split, other.IsLeftmost → other.text = html → other = split) ∧
      split.markers = scan html ∧
      manifest.substitute textOf html = split.replaced (manifest.replacement textOf) ∧
      manifest.substitute (fun _ => none) html = html := by
  refine ⟨Split.ofText html, ⟨Split.isLeftmost_ofText html, Split.text_ofText html⟩, ?_, ?_, ?_, ?_⟩
  · rintro other hother rfl
    exact hother.ofText_text.symm
  · exact Split.markers_ofPieces (pieces html.toList)
  · exact substitute_eq_replaced manifest textOf html
  · have hkept : manifest.replacement (fun _ => none) = id := by
      funext marker
      rw [replacement_eq]
      cases manifest.find? marker <;> rfl
    rw [substitute_eq_replaced, hkept]
    exact Split.text_ofText html

-- a text that looks like the marker of another slot is not replaced in turn
example : (ofSlots ["a", "b"]).substitute (fun slot => if slot = "a" then some "__RUXY_SV_b__" else some "B")
    "<i>__RUXY_SV_a____RUXY_SV_b____RUXY_SV_c__</i>" = "<i>__RUXY_SV_b__B__RUXY_SV_c__</i>" := by
  decide +kernel

end Prebake.Manifest
