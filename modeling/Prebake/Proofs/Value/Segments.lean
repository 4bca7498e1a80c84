import Mathlib.Data.List.Chain
import Prebake.Value.Operations

/-!
# Text with slots in normal form

Merging brings segments into a normal form: no text is empty, and no two texts stand side by side (`isMerged_merge`). However a
text is put together, the form is the same. Merging a part of it first changes nothing (`merge_merge_append`), and neither does
the way through a value, where a text without slots becomes a plain string (`merge_toSegments_ofSegments_append`). So texts are
added by putting their segments one after the other (`add_of_joins`).
-/

namespace Prebake

namespace Segment

theorem merge_cons (segment : Segment) (segments : List Segment) :
    merge (segment :: segments) = consMerged segment (merge segments) := rfl

/-- Segments in front are merged with what is merged behind them. -/
theorem merge_append_eq_foldr (segments others : List Segment) :
    merge (segments ++ others) = segments.foldr consMerged (merge others) := List.foldr_append

/-! ## The normal form -/

/-- Merging neither makes nor loses slots. -/
theorem any_isSlot_consMerged (segment : Segment) (merged : List Segment) :
    (consMerged segment merged).any isSlot = (segment.isSlot || merged.any isSlot) := by
  fun_cases consMerged segment merged <;> simp_all [isSlot]

/-- Merging segments keeps their slots. -/
theorem any_isSlot_merge (segments : List Segment) : (merge segments).any isSlot = segments.any isSlot := by
  induction segments with
  | nil => rfl
  | cons segment segments ih => rw [merge_cons, any_isSlot_consMerged, ih, List.any_cons]

/-- Segments in normal form: no text is empty, and of two segments side by side one is a slot. -/
structure IsMerged (segments : List Segment) : Prop where
  nonempty : text "" ∉ segments
  apart : segments.IsChain fun a b => a.isSlot = true ∨ b.isSlot = true

/-- Putting a segment in front keeps the normal form. -/
theorem isMerged_consMerged (segment : Segment) {merged : List Segment} (h : IsMerged merged) :
    IsMerged (consMerged segment merged) := by
  obtain ⟨hnonempty, hapart⟩ := h
  fun_cases consMerged segment merged with
  | case1 t u rest =>
    -- the text that was there is not empty, so neither is the longer one
    simp only [List.mem_cons, text.injEq, not_or] at hnonempty
    have hempty : "" ≠ t ++ u := by
      intro hempty
      exact hnonempty.1 (String.append_eq_empty_iff.1 hempty.symm).2.symm
    constructor
    · simp only [List.mem_cons, text.injEq, not_or]
      exact ⟨hempty, hnonempty.2⟩
    · rw [List.isChain_cons] at hapart ⊢
      exact ⟨fun next hnext => Or.inr ((hapart.1 next hnext).resolve_left Bool.false_ne_true), hapart.2⟩
  | case2 => exact ⟨hnonempty, hapart⟩
  | case3 t _ hnone ht =>
    constructor
    · simp only [List.mem_cons, text.injEq, not_or]
      exact ⟨fun hempty => ht hempty.symm, hnonempty⟩
    · refine List.isChain_cons.2 ⟨fun next hnext => Or.inr ?_, hapart⟩
      obtain ⟨rest, rfl⟩ := List.head?_eq_some_iff.1 hnext
      cases next with
      | text u => exact (hnone u rest rfl).elim
      | slot name => rfl
  | case4 name =>
    constructor
    · simpa using hnonempty
    · exact List.isChain_cons.2 ⟨fun _ _ => Or.inl rfl, hapart⟩

/-- Merging brings segments into normal form. -/
theorem isMerged_merge (segments : List Segment) : IsMerged (merge segments) := by
  induction segments with
  | nil => exact ⟨List.not_mem_nil, .nil⟩
  | cons segment segments ih =>
    rw [merge_cons]
    exact isMerged_consMerged segment ih

/-! ## Merging parts first -/

/-- An empty text in front changes nothing. -/
@[simp] theorem consMerged_text_empty (merged : List Segment) : consMerged (text "") merged = merged := by
  cases merged with
  | nil => simp [consMerged]
  | cons first rest => cases first <;> simp [consMerged]

/-- A text can be put in front in two pieces. -/
theorem consMerged_text_append (t u : String) (merged : List Segment) :
    consMerged (text (t ++ u)) merged = consMerged (text t) (consMerged (text u) merged) := by
  by_cases hu : u = ""
  · simp [hu]
  · cases merged with
    | nil => simp [consMerged, hu]
    | cons first rest =>
      cases first with
      | text w => simp [consMerged, String.append_assoc]
      | slot name => simp [consMerged, hu]

/-- Segments put in front of others one by one may have been merged before. -/
theorem foldr_consMerged_merge (segments base : List Segment) :
    (merge segments).foldr consMerged base = segments.foldr consMerged base := by
  have hcons : ∀ segment merged, (consMerged segment merged).foldr consMerged base =
      consMerged segment (merged.foldr consMerged base) := by
    intro segment merged
    fun_cases consMerged segment merged with
    | case1 t u rest => simp [consMerged_text_append]
    | case2 => simp
    | case3 => rfl
    | case4 name => rfl
  induction segments with
  | nil => rfl
  | cons segment segments ih => rw [merge_cons, hcons, ih, List.foldr_cons]

/-- To merge the first part before the whole changes nothing. -/
theorem merge_merge_append (segments others : List Segment) :
    merge (merge segments ++ others) = merge (segments ++ others) := by
  rw [merge_append_eq_foldr, foldr_consMerged_merge, merge_append_eq_foldr]

/-- What stands behind may be merged in whatever way. -/
theorem merge_append_congr {others others' : List Segment} (h : merge others = merge others') (segments : List Segment) :
    merge (segments ++ others) = merge (segments ++ others') := by
  rw [merge_append_eq_foldr, merge_append_eq_foldr, h]

/-- Texts without slots between them may be made one. -/
theorem merge_text_literal_append {segments : List Segment} (h : segments.any isSlot = false) (others : List Segment) :
    merge (text (literal segments) :: others) = merge (segments ++ others) := by
  induction segments with
  | nil => rw [literal, merge_cons, consMerged_text_empty, List.nil_append]
  | cons segment segments ih =>
    cases segment with
    | slot name => simp [isSlot] at h
    | text t =>
      have hrest : segments.any isSlot = false := by simpa [isSlot] using h
      rw [literal, merge_cons, consMerged_text_append, ← merge_cons, ih hrest, List.cons_append, merge_cons]

end Segment

namespace Value

open Segment (merge)

/-! ## Segments as values -/

/-- Segments with the same normal form have the same value. -/
theorem ofSegments_congr {segments others : List Segment} (h : merge segments = merge others) :
    ofSegments segments = ofSegments others := by
  rw [ofSegments, ofSegments, h]

@[simp] theorem joins_ofSegments (segments : List Segment) : (ofSegments segments).joins = true := by
  unfold ofSegments
  dsimp only
  split <;> rfl

/-- A text may be made a value and taken apart again before it is merged with what follows it. -/
theorem merge_toSegments_ofSegments_append (segments others : List Segment) :
    merge ((ofSegments segments).toSegments ++ others) = merge (segments ++ others) := by
  unfold ofSegments
  dsimp only
  split
  · rw [toSegments, Segment.merge_merge_append]
  · rename_i hslots
    have hnone : (merge segments).any Segment.isSlot = false := by simpa using hslots
    show merge (.text (Segment.literal (merge segments)) :: others) = merge (segments ++ others)
    rw [Segment.merge_text_literal_append hnone, Segment.merge_merge_append]

/-- A text may be made a value and taken apart again before it is merged with what stands before it. -/
theorem merge_append_toSegments_ofSegments (segments others : List Segment) :
    merge (segments ++ (ofSegments others).toSegments) = merge (segments ++ others) := by
  refine Segment.merge_append_congr ?_ segments
  simpa using merge_toSegments_ofSegments_append others []

/-! ## Addition of texts -/

variable {a b : Value}

/-- If either side is more than a number, addition puts the segments of both sides one after the other. -/
theorem add_of_joins (h : a.joins = true ∨ b.joins = true) : a.add b = .ok (ofSegments (a.toSegments ++ b.toSegments)) := by
  rw [add, if_pos (by simpa using h)]

/-- What is added to a value that is made of segments is put behind these. -/
theorem ofSegments_add (segments : List Segment) (b : Value) :
    (ofSegments segments).add b = .ok (ofSegments (segments ++ b.toSegments)) := by
  rw [add_of_joins (Or.inl (joins_ofSegments segments))]
  exact congrArg Except.ok (ofSegments_congr (merge_toSegments_ofSegments_append segments b.toSegments))

/-- A value that is made of segments is put behind what it is added to. -/
theorem add_ofSegments (a : Value) (segments : List Segment) :
    a.add (ofSegments segments) = .ok (ofSegments (a.toSegments ++ segments)) := by
  rw [add_of_joins (Or.inr (joins_ofSegments segments))]
  exact congrArg Except.ok (ofSegments_congr (merge_append_toSegments_ofSegments a.toSegments segments))

end Value

end Prebake
