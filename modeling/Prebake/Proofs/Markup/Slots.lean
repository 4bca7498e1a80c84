import Mathlib.Data.Finset.Card
import Prebake.Proofs.Markup.Scan
import Prebake.Proofs.NameMap

/-!
# Markers tell slots apart

A marker holds the slot itself, if that is made of letters and digits, or else the first bytes of its digest. The two forms
are never confused, since a written digest stands behind an underscore, and digits of bytes can be read back. So markers tell
slots apart wherever the digests do (`eq_of_ofSlot_eq`), and the manifest of such slots gives each of them back
(`Manifest.ofSlots_recovers`). Markers may stand side by side without anything between them, as no marker is the start of
another.
-/

namespace Prebake

/-! ## Digits of bytes -/

namespace Sha256

/-- A byte is known by its two digits. -/
theorem hexByte_injective : Function.Injective hexByte := by
  have hdigit : ∀ m < 16, ∀ n < 16, (if m < 10 then Char.ofNat (48 + m) else Char.ofNat (87 + m)) =
      (if n < 10 then Char.ofNat (48 + n) else Char.ofNat (87 + n)) → m = n := by
    decide
  intro a b h
  have ha : a.toNat < 256 := a.toNat_lt
  have hb : b.toNat < 256 := b.toNat_lt
  simp only [hexByte, List.cons.injEq, and_true] at h
  obtain ⟨hhigh, hlow⟩ := h
  have hdiv := hdigit (a.toNat / 16) (by omega) (b.toNat / 16) (by omega) hhigh
  have hmod := hdigit (a.toNat % 16) (by omega) (b.toNat % 16) (by omega) hlow
  refine UInt8.toNat_inj.1 ?_
  omega

/-- Bytes are known by their digits, since each has two of them. -/
theorem flatMap_hexByte_injective : Function.Injective fun bytes : List UInt8 => bytes.flatMap hexByte := by
  intro first second h
  simp only at h
  induction first generalizing second with
  | nil =>
    cases second with
    | nil => rfl
    | cons b second => simp [hexByte] at h
  | cons a first ih =>
    cases second with
    | nil => simp [hexByte] at h
    | cons b second =>
      rw [List.flatMap_cons, List.flatMap_cons] at h
      obtain ⟨hbyte, hrest⟩ := List.append_inj h rfl
      rw [hexByte_injective hbyte, ih hrest]

end Sha256

/-! ## The markers of slots -/

namespace Marker

/-- A slot that is written into its marker as it is: one or more letters and digits. -/
def IsReadable (slot : String) : Prop := slot ≠ "" ∧ ∀ c ∈ slot.toList, isPlain c = true

instance (slot : String) : Decidable (IsReadable slot) :=
  decidable_of_iff (slot ≠ "" ∧ slot.toList.all isPlain = true) (and_congr_right fun _ => List.all_eq_true)

/-- What stands in the marker of any other slot: the first eight bytes of its digest. -/
def fingerprint (slot : String) : List UInt8 := (Sha256.digest slot.toUTF8.toList).take 8

/-- A slot of letters and digits stands in its marker. -/
theorem toList_ofSlot_of_isReadable {slot : String} (h : IsReadable slot) :
    (ofSlot slot).toList = opening ++ slot.toList ++ closing := by
  have hplain : (!slot.toList.isEmpty && slot.toList.all isPlain) = true := by
    simpa [IsReadable] using h
  rw [ofSlot, String.toList_ofList, if_pos hplain]

/-- Any other slot is represented by the first bytes of its digest. -/
theorem toList_ofSlot_of_not_isReadable {slot : String} (h : ¬IsReadable slot) :
    (ofSlot slot).toList = opening ++ ('x' :: '_' :: (fingerprint slot).flatMap Sha256.hexByte) ++ closing := by
  have hplain : ¬(!slot.toList.isEmpty && slot.toList.all isPlain) = true := by
    simpa [IsReadable] using h
  rw [ofSlot, String.toList_ofList, if_neg hplain]
  rfl

/-- A slot that is written as it is has another marker than one whose digest is written, even if it looks like a digest. -/
theorem ofSlot_ne_of_isReadable {s t : String} (hs : IsReadable s) (ht : ¬IsReadable t) : ofSlot s ≠ ofSlot t := by
  intro h
  have hchars := congrArg String.toList h
  rw [toList_ofSlot_of_isReadable hs, toList_ofSlot_of_not_isReadable ht, List.append_cancel_right_eq,
    List.append_cancel_left_eq] at hchars
  have hunderscore : '_' ∈ s.toList := by
    rw [hchars]
    exact List.mem_cons_of_mem _ List.mem_cons_self
  exact ne_of_isPlain (hs.2 '_' hunderscore) rfl

/-- Slots with the same marker are the same, if their digests tell them apart. -/
theorem eq_of_ofSlot_eq {s t : String} (h : ofSlot s = ofSlot t)
    (hdigests : ¬IsReadable s → ¬IsReadable t → fingerprint s = fingerprint t → s = t) : s = t := by
  by_cases hs : IsReadable s
  · by_cases ht : IsReadable t
    · have hchars := congrArg String.toList h
      rw [toList_ofSlot_of_isReadable hs, toList_ofSlot_of_isReadable ht, List.append_cancel_right_eq,
        List.append_cancel_left_eq] at hchars
      exact String.toList_injective hchars
    · exact absurd h (ofSlot_ne_of_isReadable hs ht)
  · by_cases ht : IsReadable t
    · exact absurd h.symm (ofSlot_ne_of_isReadable ht hs)
    · have hchars := congrArg String.toList h
      rw [toList_ofSlot_of_not_isReadable hs, toList_ofSlot_of_not_isReadable ht, List.append_cancel_right_eq,
        List.append_cancel_left_eq, List.cons_inj_right, List.cons_inj_right] at hchars
      exact hdigests hs ht (Sha256.flatMap_hexByte_injective hchars)

/-- Markers side by side are found one by one. -/
theorem scan_join_ofSlot (slots : List String) : scan (String.join (slots.map ofSlot)) = slots.map ofSlot := by
  rw [scan_eq]
  induction slots with
  | nil => exact markersIn_nil
  | cons slot slots ih =>
    rw [List.map_cons, String.join_cons, String.toList_append, markersIn_append_of_isMarker (isMarker_ofSlot slot), ih,
      String.ofList_toList]

end Marker

/-! ## Manifests -/

namespace Manifest

open Marker

variable {slots : List String} {marker slot : String}

/-- A manifest of some slots gives one of them for a marker, and the marker is its own. -/
theorem of_find?_ofSlots (h : (ofSlots slots).find? marker = some slot) : slot ∈ slots ∧ ofSlot slot = marker := by
  have hfold : ∀ first : Manifest, (slots.foldl record first).find? marker = some slot →
      first.find? marker = some slot ∨ slot ∈ slots ∧ ofSlot slot = marker := by
    clear h
    induction slots with
    | nil => exact fun _ => Or.inl
    | cons head slots ih =>
      intro first h
      rcases ih (first.record head) h with hfirst | ⟨hmem, hof⟩
      · rw [record, NameMap.find?_insert] at hfirst
        split at hfirst
        · rename_i hmarker
          obtain rfl := Option.some.inj hfirst
          exact Or.inr ⟨List.mem_cons_self, hmarker.symm⟩
        · exact Or.inl hfirst
      · exact Or.inr ⟨List.mem_cons_of_mem _ hmem, hof⟩
  exact (hfold empty h).resolve_left nofun

/-- The manifest of some slots lists their markers. -/
theorem mem_names_ofSlots : marker ∈ (ofSlots slots).names ↔ ∃ slot ∈ slots, ofSlot slot = marker := by
  have hfold : ∀ first : Manifest, (slots.foldl record first).contains marker = true ↔
      first.contains marker = true ∨ ∃ slot ∈ slots, ofSlot slot = marker := by
    induction slots with
    | nil => simp
    | cons slot slots ih =>
      intro first
      rw [List.foldl_cons, ih, record, NameMap.contains_insert, List.exists_mem_cons_iff, eq_comm, or_comm (b := _ = true),
        or_assoc]
  rw [NameMap.mem_names_iff, ofSlots, hfold]
  exact or_iff_right nofun

/-- No marker is stray if the manifest lists all markers of the markup. -/
theorem firstStray?_eq_none {manifest : Manifest} {html : String} (h : ∀ marker ∈ scan html, marker ∈ manifest.names) :
    manifest.firstStray? html = none := by
  refine List.find?_eq_none.2 fun marker hmarker => ?_
  rw [NameMap.mem_names_iff.1 (h marker hmarker)]
  exact Bool.false_ne_true

/-- If the digests tell apart those of some slots that are not written as they are, the manifest of the slots has one entry for
each of them and gives it back for its marker; each entry is a marker as a whole, and the markers of any of the slots are found
again where they stand side by side. -/
theorem ofSlots_recovers {slots : List String}
    (hdigests : ∀ s ∈ slots, ∀ t ∈ slots, ¬IsReadable s → ¬IsReadable t → fingerprint s = fingerprint t → s = t) :
    (ofSlots slots).size = slots.toFinset.card ∧
      (∀ s ∈ slots, (ofSlots slots).find? (ofSlot s) = some s) ∧
      (∀ marker ∈ (ofSlots slots).names, IsMarker marker.toList ∧ scan marker = [marker]) ∧
      ∀ used : List String, (∀ s ∈ used, s ∈ slots) → scan (String.join (used.map ofSlot)) = used.map ofSlot := by
  have hinjective : ∀ s ∈ slots, ∀ t ∈ slots, ofSlot s = ofSlot t → s = t :=
    fun s hs t ht h => eq_of_ofSlot_eq h (hdigests s hs t ht)
  refine ⟨?_, ?_, ?_, fun used _ => scan_join_ofSlot used⟩
  · have hnodup : (slots.dedup.map ofSlot).Nodup := by
      refine List.Nodup.map_on (fun s hs t ht => ?_) slots.nodup_dedup
      exact hinjective s (List.mem_dedup.1 hs) t (List.mem_dedup.1 ht)
    have hnames : ∀ marker, (ofSlots slots).contains marker = true ↔ marker ∈ slots.dedup.map ofSlot := by
      intro marker
      rw [← NameMap.mem_names_iff, mem_names_ofSlots]
      simp only [List.mem_map, List.mem_dedup]
    rw [NameMap.size_eq_length hnodup hnames, List.length_map, List.card_toFinset]
  · intro s hs
    have hlisted : ofSlot s ∈ (ofSlots slots).names := mem_names_ofSlots.2 ⟨s, hs, rfl⟩
    obtain ⟨t, ht⟩ := Option.isSome_iff_exists.1 (NameMap.mem_names_iff.1 hlisted)
    obtain ⟨hmem, hof⟩ := of_find?_ofSlots ht
    rw [ht, hinjective t hmem s hs hof]
  · intro marker hmarker
    obtain ⟨slot, -, rfl⟩ := mem_names_ofSlots.1 hmarker
    refine ⟨isMarker_ofSlot slot, ?_⟩
    simpa using scan_join_ofSlot [slot]

/-- Slots of both kinds: one of them is given twice, one is empty, and one looks like a written digest. -/
theorem ofSlots_recovers_mixed :
    (∀ s ∈ ["x", "user.name", "", "x04b5b4e1f2c8a9d7", "x"], ∀ t ∈ ["x", "user.name", "", "x04b5b4e1f2c8a9d7", "x"],
      ¬IsReadable s → ¬IsReadable t → fingerprint s = fingerprint t → s = t) ∧
    (ofSlots ["x", "user.name", "", "x04b5b4e1f2c8a9d7", "x"]).size = 4 ∧
    (ofSlots ["x", "user.name", "", "x04b5b4e1f2c8a9d7", "x"]).find? (ofSlot "user.name") = some "user.name" ∧
    scan (String.join (["", "x", "", "user.name"].map ofSlot)) = ["", "x", "", "user.name"].map ofSlot := by
  have hdigests : ∀ s ∈ ["x", "user.name", "", "x04b5b4e1f2c8a9d7", "x"],
      ∀ t ∈ ["x", "user.name", "", "x04b5b4e1f2c8a9d7", "x"], ¬IsReadable s → ¬IsReadable t →
        fingerprint s = fingerprint t → s = t := by
    decide +kernel
  obtain ⟨hsize, hfind, -, hscan⟩ := ofSlots_recovers hdigests
  exact ⟨hdigests, hsize, hfind _ (by decide), hscan _ (by decide)⟩

end Manifest

end Prebake
