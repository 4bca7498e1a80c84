import Prebake.Proofs.Value.Member
import Prebake.Proofs.Value.Ordering

/-!
# Positions in texts

The length of a text and the positions in it count the same units, so something stands at exactly the positions below the
length, and what stands there, from the first to the last, spells the text. Only a character of two units is not spelled: each of
its halves reads as a replacement character. `member_positions` says so for all texts.
-/

namespace Prebake

namespace Units

variable {c : Char} {s : String} {n : Nat}

/-- What is read at the positions of a text: its characters, with two replacement characters for one that takes two units. -/
def spelled (s : String) : List Char := s.toList.flatMap fun c => if isWide c then ['\uFFFD', '\uFFFD'] else [c]

/-! ## Units of one character -/

theorem isWide_iff : isWide c = true ↔ 0x10000 ≤ c.toNat := decide_eq_true_iff

theorem isSurrogate_ofNat (hn : n < 0x10000) : isSurrogate (UInt16.ofNat n) = true ↔ 0xD800 ≤ n ∧ n ≤ 0xDFFF := by
  have hunit : (UInt16.ofNat n).toNat = n := UInt16.toNat_ofNat_of_lt' hn
  rw [isSurrogate, Bool.and_eq_true, decide_eq_true_eq, decide_eq_true_eq, UInt16.le_iff_toNat_le, UInt16.le_iff_toNat_le, hunit]
  rfl

/-- The unit of a character that takes only one is read as the character. -/
theorem toText_ofNat_toNat (h : c.toNat < 0x10000) : toText (UInt16.ofNat c.toNat) = String.singleton c := by
  have hunit : (UInt16.ofNat c.toNat).toNat = c.toNat := UInt16.toNat_ofNat_of_lt' h
  have hbasic : ¬isSurrogate (UInt16.ofNat c.toNat) = true := by
    rw [isSurrogate_ofNat h]
    have := toNat_char c
    omega
  rw [toText, if_neg hbasic, hunit, Char.ofNat_toNat]

/-- A single surrogate reads as a replacement character. -/
theorem toText_surrogate (hlow : 0xD800 ≤ n) (hhigh : n ≤ 0xDFFF) : toText (UInt16.ofNat n) = String.singleton '\uFFFD' := by
  rw [toText, if_pos ((isSurrogate_ofNat (by omega)).2 ⟨hlow, hhigh⟩)]
  rfl

/-- The units of a character read as the character, or as two replacement characters if it is wide. -/
theorem map_toText_ofChar (c : Char) :
    (ofChar c).map toText = (if isWide c then ['\uFFFD', '\uFFFD'] else [c]).map String.singleton := by
  split_ifs with h
  · have hwide := isWide_iff.1 h
    have hc := toNat_char c
    rw [ofChar_of_le hwide, List.map_cons, List.map_singleton, toText_surrogate (by omega) (by omega),
      toText_surrogate (by omega) (by omega)]
    rfl
  · have hbasic := Nat.lt_of_not_le fun hle => h (isWide_iff.2 hle)
    rw [ofChar_of_lt hbasic, List.map_singleton, List.map_singleton, toText_ofNat_toNat hbasic]

/-! ## Units of a text -/

/-- Unit by unit, a text is read as it is spelled. -/
theorem map_toText_ofText (s : String) : (ofText s).map toText = (spelled s).map String.singleton := by
  rw [ofText, spelled, List.map_flatMap, List.map_flatMap]
  exact List.flatMap_congr fun c _ => map_toText_ofChar c

/-- What a text spells has as many characters as the text has units. -/
theorem length_spelled (s : String) : (spelled s).length = count s := by
  have hlength := congrArg List.length (map_toText_ofText s)
  rw [List.length_map, List.length_map] at hlength
  exact hlength.symm

/-- A text has as many units as characters, where those of two units count twice. -/
theorem count_eq (s : String) : count s = s.toList.length + s.toList.countP isWide := by
  rw [← length_spelled, spelled]
  induction s.toList with
  | nil => rfl
  | cons c chars ih =>
    rw [List.flatMap_cons, List.length_append, ih, List.length_cons, List.countP_cons]
    split_ifs <;> simp only [List.length_cons, List.length_nil] <;> omega

/-- A text whose characters all take one unit is spelled in full. -/
theorem spelled_eq_toList (h : ∀ c ∈ s.toList, ¬isWide c) : spelled s = s.toList := by
  have hchars : spelled s = s.toList.flatMap fun c => [c] :=
    List.flatMap_congr fun c hc => if_neg (h c hc)
  rw [hchars, List.flatMap_singleton']

theorem join_map_singleton (chars : List Char) : String.join (chars.map String.singleton) = String.ofList chars := by
  rw [← String.toList_inj, String.toList_join, String.toList_ofList, List.flatMap_map]
  simp

end Units

namespace Value

open Prebake.Units

variable {s : String} {i : Nat}

/-- The elements of a text are what it spells, one character each. -/
theorem elements?_string (s : String) :
    (string s).elements? = some ((spelled s).map fun c => string (String.singleton c)) := by
  have hread := congrArg (List.map string) (map_toText_ofText s)
  rw [List.map_map, List.map_map] at hread
  exact congrArg some hread

/-- At a position of at most 64 bits stands what is spelled there, if anything is, and nothing stands at any other. -/
theorem member_repr (s : String) (i : Nat) : (string s).member (string (Nat.repr i)) =
    .ok (if i < 2 ^ 64 then ((spelled s)[i]?.map fun c => string (String.singleton c)).getD undefined else undefined) := by
  have hkey : (string (Nat.repr i)).toText = .ok (Nat.repr i) := rfl
  have hlength : Nat.repr i ≠ "length" := fun h => not_spells_length i (h ▸ spells_repr i)
  rw [member_elements (elements?_string s) hkey, if_neg hlength, (position?_of_spells (spells_repr i)).1, List.getElem?_map]

/-- The length of a text is its number of units. Below the length, and nowhere else, something stands at a position, and in
the order of the positions this is what the text spells: the text itself, but for characters of two units. Keys are read as
numbers of 64 bits, which a text in memory does not outgrow. -/
theorem member_positions (s : String) :
    (string s).member (string "length") = .ok (number (Float.ofNat (count s))) ∧
    count s = s.toList.length + s.toList.countP isWide ∧
    (∀ i, i < 2 ^ 64 ∨ count s ≤ 2 ^ 64 → ((string s).member (string (Nat.repr i)) = .ok undefined ↔ count s ≤ i)) ∧
    (count s ≤ 2 ^ 64 → (List.range (count s)).map (fun i => (string s).member (string (Nat.repr i))) =
      (spelled s).map fun c => .ok (string (String.singleton c))) ∧
    ((∀ c ∈ s.toList, ¬isWide c) → String.join ((spelled s).map String.singleton) = s) := by
  refine ⟨rfl, count_eq s, fun i hi => ?_, fun hcount => ?_, fun hbasic => ?_⟩
  · rw [member_repr]
    split_ifs with hlt
    · rw [← length_spelled, ← List.getElem?_eq_none_iff]
      cases (spelled s)[i]? with
      | none => exact iff_of_true rfl rfl
      | some c => exact iff_of_false nofun nofun
    · exact iff_of_true rfl (Nat.le_trans (hi.resolve_left hlt) (Nat.le_of_not_lt hlt))
  · refine List.ext_getElem? fun i => ?_
    rcases Nat.lt_or_ge i (count s) with hlt | hge
    · obtain ⟨c, hspelled⟩ : ∃ c, (spelled s)[i]? = some c := ⟨_, List.getElem?_eq_getElem (by rwa [length_spelled])⟩
      rw [List.getElem?_map, List.getElem?_range hlt, List.getElem?_map, Option.map_some, member_repr,
        if_pos (Nat.lt_of_lt_of_le hlt hcount), hspelled]
      rfl
    · rw [List.getElem?_eq_none (by simpa using hge), List.getElem?_eq_none (by simpa [length_spelled] using hge)]
  · rw [spelled_eq_toList hbasic, join_map_singleton, String.ofList_toList]

/-- A smiley takes two of the three units of a text, and neither of them shows it. -/
theorem member_positions_smiley :
    count "😀x" = 3 ∧ (string "😀x").member (string "3") = .ok undefined ∧
    (List.range 3).map (fun i => (string "😀x").member (string (Nat.repr i))) =
      [.ok (string "\uFFFD"), .ok (string "\uFFFD"), .ok (string "x")] ∧
    String.join ((spelled "hé").map String.singleton) = "hé" := by
  obtain ⟨-, -, hnothing, hpositions, -⟩ := member_positions "😀x"
  obtain ⟨-, -, -, -, hspelled⟩ := member_positions "hé"
  have hcount : count "😀x" = 3 := by decide
  have hbasic : ∀ c ∈ "hé".toList, ¬isWide c := List.forall_iff_forall_mem.1 (by decide)
  refine ⟨hcount, (hnothing 3 (Or.inl (by decide))).2 (by decide), ?_, hspelled hbasic⟩
  rw [hcount] at hpositions
  exact hpositions (by decide)

end Value

end Prebake
