import Mathlib.Data.Char
import Prebake.Evaluation

/-!
# The order of texts and the order of their units

Lengths and positions of texts count UTF-16 units, and a script that asks which of two texts comes first compares units,
too. The order of texts compares characters instead. This makes no difference between characters that take equally many
units. But a character of two units comes after all others, while its first unit, a surrogate, comes before the units from
`U+E000` on. `order_strings_iff` says that nothing else tells the two orders apart: they are opposite for texts that first
differ where a character of two units meets one from `U+E000` on, and the same for all other texts.
-/

namespace Prebake

namespace Units

/-- Whether a character takes two units. -/
def isWide (c : Char) : Bool := 0x10000 ≤ c.toNat

/-- Whether a character is a unit that comes after all surrogates. -/
def isPastSurrogates (c : Char) : Bool := 0xE000 ≤ c.toNat && c.toNat < 0x10000

/-- Whether one of two characters takes two units and the other one comes after all surrogates. -/
def areCrossed (c d : Char) : Bool := (isWide c && isPastSurrogates d) || (isPastSurrogates c && isWide d)

/-- Whether two texts differ, and first do so in characters that are crossed. -/
def partCrossed : List Char → List Char → Bool
  | c :: s, d :: t => if c = d then partCrossed s t else areCrossed c d
  | _, _ => false

/-! ## Characters -/

theorem char_lt_iff {c d : Char} : c < d ↔ c.toNat < d.toNat := by
  rw [Char.lt_def, UInt32.lt_iff_toNat_lt]
  rfl

theorem compare_char (c d : Char) : compare c d = compare c.toNat d.toNat := by
  rcases lt_trichotomy c d with h | rfl | h
  · rw [compare_lt_iff_lt.2 h, compare_lt_iff_lt.2 (char_lt_iff.1 h)]
  · rw [compare_eq_iff_eq.2 rfl, compare_eq_iff_eq.2 rfl]
  · rw [compare_gt_iff_gt.2 h, compare_gt_iff_gt.2 (char_lt_iff.1 h)]

theorem compare_unit {m n : Nat} (hm : m < 0x10000) (hn : n < 0x10000) :
    compare (UInt16.ofNat m) (UInt16.ofNat n) = compare m n := by
  have hleft : (UInt16.ofNat m).toNat = m := UInt16.toNat_ofNat_of_lt' hm
  have hright : (UInt16.ofNat n).toNat = n := UInt16.toNat_ofNat_of_lt' hn
  rcases lt_trichotomy m n with h | rfl | h
  · rw [Nat.compare_eq_lt.2 h, Std.compare_eq_lt, UInt16.lt_iff_toNat_lt]
    omega
  · rw [Nat.compare_eq_eq.2 rfl, Std.compare_eq_iff_eq]
  · rw [Nat.compare_eq_gt.2 h, Std.compare_eq_gt, UInt16.lt_iff_toNat_lt]
    omega

/-- No character is a surrogate, and none takes more than two units. -/
theorem toNat_char (c : Char) : c.toNat < 0xD800 ∨ 0xE000 ≤ c.toNat ∧ c.toNat < 0x110000 := by
  rcases c.valid with h | h
  · exact Or.inl h
  · exact Or.inr ⟨Nat.succ_le_of_lt h.1, h.2⟩

/-- Numbers that differ decide, and nothing after them counts. -/
theorem compare_then {m n : Nat} (h : m ≠ n) (next : Ordering) : (compare m n).then next = compare m n := by
  rcases Nat.lt_or_gt_of_ne h with h | h
  · rw [Nat.compare_eq_lt.2 h]
    rfl
  · rw [Nat.compare_eq_gt.2 h]
    rfl

/-- Two units are compared by the first of them in which they differ: numbers by quotients, then by remainders. -/
theorem compare_div_then_mod (m n base : Nat) :
    (compare (m / base) (n / base)).then (compare (m % base) (n % base)) = compare m n := by
  have hm := Nat.div_add_mod m base
  have hn := Nat.div_add_mod n base
  rcases lt_trichotomy (m / base) (n / base) with h | h | h
  · have hlt : m < n := Nat.lt_of_div_lt_div h
    rw [Nat.compare_eq_lt.2 h, Nat.compare_eq_lt.2 hlt]
    rfl
  · rw [Nat.compare_eq_eq.2 h, Ordering.eq_then]
    rw [h] at hm
    rcases lt_trichotomy (m % base) (n % base) with h | h | h
    · rw [Nat.compare_eq_lt.2 h, eq_comm, Nat.compare_eq_lt]
      omega
    · rw [Nat.compare_eq_eq.2 h, eq_comm, Nat.compare_eq_eq]
      omega
    · rw [Nat.compare_eq_gt.2 h, eq_comm, Nat.compare_eq_gt]
      omega
  · have hlt : n < m := Nat.lt_of_div_lt_div h
    rw [Nat.compare_eq_gt.2 h, Nat.compare_eq_gt.2 hlt]
    rfl

theorem compare_add_left (k m n : Nat) : compare (k + m) (k + n) = compare m n := by
  simp [Nat.compare_eq_ite_lt]

/-- A character below the wide ones is one unit. -/
theorem ofChar_of_lt {c : Char} (h : c.toNat < 0x10000) : ofChar c = [UInt16.ofNat c.toNat] := by
  unfold ofChar
  rw [if_pos h]

/-- A wide character is two surrogates. -/
theorem ofChar_of_le {c : Char} (h : 0x10000 ≤ c.toNat) :
    ofChar c = [UInt16.ofNat (0xD800 + (c.toNat - 0x10000) / 0x400),
      UInt16.ofNat (0xDC00 + (c.toNat - 0x10000) % 0x400)] := by
  unfold ofChar
  rw [if_neg (Nat.not_lt.2 h)]

/-- Characters are crossed if one of them is wide and the other is past the surrogates. -/
theorem areCrossed_iff {c d : Char} : areCrossed c d = true ↔
    0x10000 ≤ c.toNat ∧ 0xE000 ≤ d.toNat ∧ d.toNat < 0x10000 ∨
      0xE000 ≤ c.toNat ∧ c.toNat < 0x10000 ∧ 0x10000 ≤ d.toNat := by
  simp [areCrossed, isWide, isPastSurrogates, and_assoc]

/-- Being crossed does not depend on the order of the two. -/
theorem areCrossed_comm (c d : Char) : areCrossed c d = areCrossed d c := by
  rw [Bool.eq_iff_iff, areCrossed_iff, areCrossed_iff]
  omega

section

variable {c d : Char} (u v : List UInt16)

/-- Characters of one unit each compare as their units do, whatever follows. -/
theorem compare_basic_append (h : c ≠ d) (hc : c.toNat < 0x10000) (hd : d.toNat < 0x10000) :
    compare (ofChar c ++ u) (ofChar d ++ v) = compare c d := by
  have hne : c.toNat ≠ d.toNat := fun same => h (Char.toNat_inj.1 same)
  rw [ofChar_of_lt hc, ofChar_of_lt hd, List.singleton_append, List.singleton_append, List.compare_cons_cons,
    compare_unit hc hd, compare_then hne, compare_char]

/-- Characters of two units each compare as their units do, whatever follows. -/
theorem compare_wide_append (h : c ≠ d) (hc : 0x10000 ≤ c.toNat) (hd : 0x10000 ≤ d.toNat) :
    compare (ofChar c ++ u) (ofChar d ++ v) = compare c d := by
  have hne : c.toNat - 0x10000 ≠ d.toNat - 0x10000 := fun same => h (Char.toNat_inj.1 (by omega))
  have hcb := toNat_char c
  have hdb := toNat_char d
  have hshift := compare_add_left 0x10000 (c.toNat - 0x10000) (d.toNat - 0x10000)
  rw [Nat.add_sub_cancel' hc, Nat.add_sub_cancel' hd] at hshift
  rw [ofChar_of_le hc, ofChar_of_le hd, List.cons_append, List.singleton_append, List.cons_append, List.singleton_append,
    List.compare_cons_cons, List.compare_cons_cons, compare_unit (by omega) (by omega), compare_unit (by omega) (by omega),
    compare_add_left, compare_add_left, ← Ordering.then_assoc, compare_div_then_mod, compare_then hne, compare_char, hshift]

/-- The first unit of a character of two units comes before the units past all surrogates and after all others. -/
theorem compare_basic_append_wide (hc : c.toNat < 0x10000) (hd : 0x10000 ≤ d.toNat) :
    compare (ofChar c ++ u) (ofChar d ++ v) = if areCrossed c d then (compare c d).swap else compare c d := by
  have hcb := toNat_char c
  have hdb := toNat_char d
  have hlt : compare c d = .lt := compare_lt_iff_lt.2 (char_lt_iff.2 (by omega))
  rw [ofChar_of_lt hc, ofChar_of_le hd, List.singleton_append, List.cons_append, List.compare_cons_cons,
    compare_unit hc (by omega), compare_then (by omega), hlt]
  by_cases hpast : 0xE000 ≤ c.toNat
  · rw [if_pos (areCrossed_iff.2 (by omega)), Ordering.swap_lt, Nat.compare_eq_gt]
    omega
  · rw [if_neg (fun h => by have := areCrossed_iff.1 h; omega), Nat.compare_eq_lt]
    omega

/-- Two different characters are told apart by their units, whatever follows them; if they are crossed, the other way round. -/
theorem compare_ofChar_append (h : c ≠ d) :
    compare (ofChar c ++ u) (ofChar d ++ v) = if areCrossed c d then (compare c d).swap else compare c d := by
  have hcrossed := @areCrossed_iff c d
  rcases Nat.lt_or_ge c.toNat 0x10000 with hc | hc <;> rcases Nat.lt_or_ge d.toNat 0x10000 with hd | hd
  · rw [compare_basic_append u v h hc hd, if_neg (fun h => by have := hcrossed.1 h; omega)]
  · exact compare_basic_append_wide u v hc hd
  · rw [Std.OrientedOrd.eq_swap, compare_basic_append_wide v u hd hc, areCrossed_comm, Std.OrientedOrd.eq_swap (a := d)]
    cases areCrossed c d <;> simp
  · rw [compare_wide_append u v h hc hd, if_neg (fun h => by have := hcrossed.1 h; omega)]

end

/-! ## Texts -/

/-- The order of texts compares their characters from left to right. -/
theorem compareOfLessAndEq_eq_compare (s t : List Char) : compareOfLessAndEq s t = compare s t := by
  induction s generalizing t with
  | nil => cases t <;> rfl
  | cons c s ih =>
    cases t with
    | nil => rfl
    | cons d t =>
      rw [List.compare_cons_cons, ← ih t]
      simp only [compareOfLessAndEq, List.cons_lt_cons_iff, List.cons.injEq]
      rcases lt_trichotomy c d with h | rfl | h
      · simp [h, compare_lt_iff_lt.2 h]
      · simp
      · simp [not_lt_of_gt h, ne_of_gt h, compare_gt_iff_gt.2 h]

theorem compare_string (a b : String) : compare a b = compare a.toList b.toList := by
  rw [← compareOfLessAndEq_eq_compare]
  show compareOfLessAndEq a b = _
  simp only [compareOfLessAndEq, String.toList_inj]
  rfl

/-- Every character has a first unit. -/
theorem exists_ofChar (c : Char) : ∃ first rest, ofChar c = first :: rest := by
  unfold ofChar
  dsimp only
  split <;> exact ⟨_, _, rfl⟩

/-- What two texts start with alike does not count. -/
theorem compare_append_left (first u v : List UInt16) : compare (first ++ u) (first ++ v) = compare u v := by
  induction first with
  | nil => rfl
  | cons unit first ih =>
    rw [List.cons_append, List.cons_append, List.compare_cons_cons, ih, Std.ReflOrd.compare_self, Ordering.eq_then]

/-- The units of two texts are compared like the texts, or the other way round if the texts part in crossed characters. -/
theorem compare_flatMap_ofChar (s t : List Char) : compare (s.flatMap ofChar) (t.flatMap ofChar) =
    if partCrossed s t then (compare s t).swap else compare s t := by
  induction s generalizing t with
  | nil =>
    cases t with
    | nil => rfl
    | cons d t =>
      obtain ⟨first, rest, hd⟩ := exists_ofChar d
      rw [List.flatMap_cons, hd]
      rfl
  | cons c s ih =>
    cases t with
    | nil =>
      obtain ⟨first, rest, hc⟩ := exists_ofChar c
      rw [List.flatMap_cons, hc]
      rfl
    | cons d t =>
      rw [List.flatMap_cons, List.flatMap_cons, List.compare_cons_cons, partCrossed]
      by_cases h : c = d
      · subst h
        rw [if_pos rfl, compare_append_left, ih, Std.ReflOrd.compare_self, Ordering.eq_then]
      · have hthen : (compare c d).then (compare s t) = compare c d := by
          rw [compare_char]
          exact compare_then (fun same => h (Char.toNat_inj.1 same)) _
        rw [if_neg h, compare_ofChar_append _ _ h, hthen]

/-- A text does not part from itself. -/
theorem partCrossed_self (s : List Char) : partCrossed s s = false := by
  induction s with
  | nil => rfl
  | cons c s ih => rw [partCrossed, if_pos rfl, ih]

end Units

namespace Value

/-- The order of two texts is that of their units, except for texts that part in crossed characters, where it is the
opposite. -/
theorem order_strings_iff (a b : String) :
    (string a).order (string b) = .ok (some (if Units.partCrossed a.toList b.toList
      then (compare (Units.ofText a) (Units.ofText b)).swap else compare (Units.ofText a) (Units.ofText b))) ∧
    ((string a).order (string b) = .ok (some (compare (Units.ofText a) (Units.ofText b))) ↔
      Units.partCrossed a.toList b.toList = false) := by
  have horder : (string a).order (string b) = .ok (some (compare a.toList b.toList)) := by
    rw [← Units.compare_string]
    rfl
  rw [horder, Units.ofText, Units.ofText, Units.compare_flatMap_ofChar]
  cases hcrossed : Units.partCrossed a.toList b.toList with
  | false => exact ⟨rfl, iff_of_true rfl rfl⟩
  | true =>
    have hne : compare a.toList b.toList ≠ .eq := by
      intro heq
      rw [Std.LawfulEqOrd.eq_of_compare heq, Units.partCrossed_self] at hcrossed
      exact Bool.false_ne_true hcrossed
    rw [if_pos rfl, if_pos rfl, Ordering.swap_swap]
    refine ⟨rfl, iff_of_false ?_ nofun⟩
    cases horders : compare a.toList b.toList with
    | eq => exact absurd horders hne
    | lt | gt => exact nofun

/-- A wide letter comes before a smiley as a character, but after it by its unit, and so a script that asks is told the
opposite. -/
theorem order_strings_crossed : (string "ｚ").order (string "😀") = .ok (some .lt) ∧
    compare (Units.ofText "ｚ") (Units.ofText "😀") = .gt ∧
    evalSource (fun _ => .ok undefined) "\"ｚ\" < \"😀\"" = .ok (bool true) :=
  ⟨by decide, by decide, by rfl⟩

end Value

end Prebake
