import Mathlib.Algebra.Group.Nat.Defs
import Mathlib.Data.List.Basic
import Prebake.Value.Operations

/-!
# Keys that denote a position

A key is turned into a text before an array or a text is asked for what stands under it, and an object keeps any two texts apart
as keys. But a position is read off a key like a number, so its numeral is not the only key for it: zeros may stand before the
numeral, and a plus sign before all of them. `member_elements_iff` gives the element under every key, and says for which keys it
is another one than if each position had its numeral as the only key.
-/

namespace Prebake

/-! ## Digits -/

/-- The digits stand side by side among the characters. -/
theorem toNat_of_isDigit {c : Char} (h : c.isDigit = true) : 48 ≤ c.toNat ∧ c.toNat ≤ 57 := by
  rw [Char.isDigit, Bool.and_eq_true, decide_eq_true_eq, decide_eq_true_eq] at h
  exact h

/-- A digit is written for the number that it stands for. -/
theorem digitChar_of_isDigit {c : Char} (h : c.isDigit = true) : Nat.digitChar (c.toNat - 48) = c := by
  have hc := toNat_of_isDigit h
  apply Char.toNat_inj.1
  rw [Nat.toNat_digitChar_of_lt_ten (by omega)]
  omega

/-- Digits denote the same number for the model as for the library. -/
theorem ofDigits_eq_ofDigitChars {digits : List Char} (h : ∀ c ∈ digits, c.isDigit = true) :
    ofDigits 10 digits = Nat.ofDigitChars 10 digits 0 := by
  rw [Nat.ofDigitChars_eq_foldl]
  refine List.foldl_ext _ _ 0 fun n c hc => ?_
  rw [digitValue, if_pos (h c hc), Nat.mul_comm]

/-- More digits after a number other than zero make its numeral longer. -/
theorem toDigits_append_digits {digits : List Char} (h : ∀ c ∈ digits, c.isDigit = true) {n : Nat} (hn : 0 < n) :
    Nat.toDigits 10 n ++ digits = Nat.toDigits 10 (Nat.ofDigitChars 10 digits n) := by
  induction digits generalizing n with
  | nil => rw [List.append_nil, Nat.ofDigitChars_nil]
  | cons c digits ih =>
    obtain ⟨hdigit, hdigits⟩ := List.forall_mem_cons.1 h
    have hc := toNat_of_isDigit hdigit
    have hlast : Nat.toDigits 10 n ++ [c] = Nat.toDigits 10 (10 * n + (c.toNat - 48)) := by
      rw [← Nat.toDigits_append_toDigits (by decide) hn (by omega), Nat.toDigits_of_lt_base (n := c.toNat - 48) (by omega),
        digitChar_of_isDigit hdigit]
    rw [Nat.ofDigitChars_cons]
    show _ = Nat.toDigits 10 (Nat.ofDigitChars 10 digits (10 * n + (c.toNat - 48)))
    rw [← ih hdigits (by omega), ← hlast, List.append_assoc, List.singleton_append]

/-- Digits are zeros and the numeral of the number that they denote. -/
theorem exists_zeros_append_toDigits {digits : List Char} (h : ∀ c ∈ digits, c.isDigit = true) (hne : digits ≠ []) :
    ∃ zeros, digits = List.replicate zeros '0' ++ Nat.toDigits 10 (Nat.ofDigitChars 10 digits 0) := by
  induction digits with
  | nil => exact absurd rfl hne
  | cons c digits ih =>
    obtain ⟨hdigit, hdigits⟩ := List.forall_mem_cons.1 h
    have hc := toNat_of_isDigit hdigit
    rw [Nat.ofDigitChars_cons]
    by_cases hzero : c = '0'
    · subst hzero
      by_cases hlast : digits = []
      · exact ⟨0, by rw [hlast]; rfl⟩
      · obtain ⟨zeros, hzeros⟩ := ih hdigits hlast
        exact ⟨zeros + 1, by rw [List.replicate_succ, List.cons_append]; exact congrArg _ hzeros⟩
    · have hpos : c.toNat ≠ 48 := fun heq => hzero (Char.toNat_inj.1 heq)
      refine ⟨0, ?_⟩
      show c :: digits = Nat.toDigits 10 (Nat.ofDigitChars 10 digits (0 + (c.toNat - 48)))
      rw [Nat.zero_add, ← toDigits_append_digits hdigits (by omega), Nat.toDigits_of_lt_base (by omega),
        digitChar_of_isDigit hdigit, List.singleton_append]

theorem zeros_append_toDigits_isDigit (zeros i : Nat) :
    ∀ c ∈ List.replicate zeros '0' ++ Nat.toDigits 10 i, c.isDigit = true := by
  intro c hc
  rcases List.mem_append.1 hc with hc | hc
  · rw [List.eq_of_mem_replicate hc]
    rfl
  · exact Nat.isDigit_of_mem_toDigits (by decide) (by decide) hc

/-- Zeros before a numeral do not change what it denotes. -/
theorem ofDigits_zeros_append_toDigits (zeros i : Nat) :
    ofDigits 10 (List.replicate zeros '0' ++ Nat.toDigits 10 i) = i := by
  rw [ofDigits_eq_ofDigitChars (zeros_append_toDigits_isDigit zeros i), Nat.ofDigitChars_append,
    Nat.ofDigitChars_replicate_zero, Nat.mul_zero, Nat.ofDigitChars_toDigits (by decide) (by decide)]

namespace Value

variable {value key : Value} {items : List Value} {k : String} {i : Nat}

/-! ## Positions -/

/-- The spellings of a position: its numeral, which zeros may precede, and a plus sign these. -/
def Spells (k : String) (i : Nat) : Prop :=
  ∃ sign ∈ ["", "+"], ∃ zeros, k = sign ++ String.ofList (List.replicate zeros '0') ++ Nat.repr i

/-- The spellings of a position have a sign or not, then zeros, then its numeral. -/
theorem spells_iff_toList : Spells k i ↔ ∃ sign ∈ [[], ['+']], ∃ zeros,
    k.toList = sign ++ (List.replicate zeros '0' ++ Nat.toDigits 10 i) := by
  have htoList : ∀ (sign : String) (zeros : Nat), k = sign ++ String.ofList (List.replicate zeros '0') ++ Nat.repr i ↔
      k.toList = sign.toList ++ (List.replicate zeros '0' ++ Nat.toDigits 10 i) := by
    intro sign zeros
    rw [← String.toList_inj, String.toList_append, String.toList_append, String.toList_ofList, Nat.toList_repr,
      List.append_assoc]
  constructor
  · rintro ⟨sign, hsign, zeros, hk⟩
    refine ⟨sign.toList, ?_, zeros, (htoList sign zeros).1 hk⟩
    rcases List.mem_pair.1 hsign with rfl | rfl <;> decide
  · rintro ⟨sign, hsign, zeros, hk⟩
    refine ⟨String.ofList sign, ?_, zeros, (htoList _ zeros).2 (by rwa [String.toList_ofList])⟩
    rcases List.mem_pair.1 hsign with rfl | rfl <;> decide

theorem spells_repr (i : Nat) : Spells (Nat.repr i) i := ⟨"", by decide, 0, by simp⟩

/-- What is left of a key without a plus sign before it. -/
def withoutPlus : List Char → List Char
  | '+' :: rest => rest
  | all => all

/-- A text is what is left without a plus sign, with that sign in front or not. -/
theorem exists_sign_append_withoutPlus (s : List Char) : ∃ sign ∈ [[], ['+']], s = sign ++ withoutPlus s := by
  unfold withoutPlus
  split
  · exact ⟨['+'], by decide, rfl⟩
  · exact ⟨[], by decide, rfl⟩

/-- Digits are what is left without the sign in front of them. -/
theorem withoutPlus_sign_append {sign digits : List Char} (hsign : sign ∈ [[], ['+']]) (h : ∀ c ∈ digits, c.isDigit = true) :
    withoutPlus (sign ++ digits) = digits := by
  rcases List.mem_pair.1 hsign with rfl | rfl
  · rw [List.nil_append]
    unfold withoutPlus
    split
    · exact absurd (h '+' List.mem_cons_self) (by decide)
    · rfl
  · rfl

/-- A key spells a position exactly if it is a number of digits that denote it, but for a plus sign. -/
theorem spells_iff : Spells k i ↔ withoutPlus k.toList ≠ [] ∧ (∀ c ∈ withoutPlus k.toList, c.isDigit = true) ∧
    ofDigits 10 (withoutPlus k.toList) = i := by
  rw [spells_iff_toList]
  constructor
  · rintro ⟨sign, hsign, zeros, hk⟩
    rw [hk, withoutPlus_sign_append hsign (zeros_append_toDigits_isDigit zeros i)]
    exact ⟨List.append_ne_nil_of_right_ne_nil _ Nat.toDigits_ne_nil, zeros_append_toDigits_isDigit zeros i,
      ofDigits_zeros_append_toDigits zeros i⟩
  · rintro ⟨hne, hdigits, rfl⟩
    obtain ⟨sign, hsign, hk⟩ := exists_sign_append_withoutPlus k.toList
    obtain ⟨zeros, hzeros⟩ := exists_zeros_append_toDigits hdigits hne
    refine ⟨sign, hsign, zeros, ?_⟩
    rw [ofDigits_eq_ofDigitChars hdigits, ← hzeros]
    exact hk

/-- No key spells two positions. -/
theorem Spells.unique {j : Nat} (hi : Spells k i) (hj : Spells k j) : i = j :=
  (spells_iff.1 hi).2.2.symm.trans (spells_iff.1 hj).2.2

/-- A key denotes the position that it spells, if this is a number of at most 64 bits. -/
theorem position?_eq_some_iff : position? k = some i ↔ Spells k i ∧ i < 2 ^ 64 := by
  have hunfold : position? k = if !(withoutPlus k.toList).isEmpty && (withoutPlus k.toList).all Char.isDigit &&
      ofDigits 10 (withoutPlus k.toList) < Nat.pow 2 64 then some (ofDigits 10 (withoutPlus k.toList)) else none := rfl
  rw [hunfold, spells_iff]
  simp only [Option.ite_none_right_eq_some, Option.some.injEq, Bool.and_eq_true, Bool.not_eq_true', List.isEmpty_eq_false_iff,
    List.all_eq_true, decide_eq_true_eq]
  constructor
  · rintro ⟨⟨⟨hne, hdigits⟩, hlt⟩, rfl⟩
    exact ⟨⟨hne, hdigits, rfl⟩, hlt⟩
  · rintro ⟨⟨hne, hdigits, rfl⟩, hlt⟩
    exact ⟨⟨⟨hne, hdigits⟩, hlt⟩, rfl⟩

/-- The number whose numeral a text is. -/
def numeral? (k : String) : Option Nat :=
  let i := ofDigits 10 k.toList
  if k = Nat.repr i then some i else none

/-- A position has its decimal numeral and no other. -/
theorem numeral?_eq_some_iff : numeral? k = some i ↔ k = Nat.repr i := by
  unfold numeral?
  simp only [Option.ite_none_right_eq_some, Option.some.injEq]
  constructor
  · rintro ⟨hk, rfl⟩
    exact hk
  · rintro rfl
    have hvalue := ofDigits_zeros_append_toDigits 0 i
    rw [List.replicate_zero, List.nil_append] at hvalue
    rw [Nat.toList_repr, hvalue]
    exact ⟨rfl, rfl⟩

/-! ## Elements -/

/-- The items of an array, or the units of a text as texts of their own. -/
def elements? : Value → Option (List Value)
  | array items => some items
  | string s => some ((Units.ofText s).map fun unit => string (Units.toText unit))
  | _ => none

/-- What stands under a key if each position has its numeral as the only key. -/
def namedElement (items : List Value) (k : String) : Value :=
  if k = "length" then number (Float.ofNat items.length)
  else ((numeral? k).bind fun i => items[i]?).getD undefined

/-- An array or a text gives its number of elements under `length`, and else the element at the position that a key denotes. -/
theorem member_elements (hvalue : value.elements? = some items) (hkey : key.toText = .ok k) :
    value.member key = .ok (if k = "length" then number (Float.ofNat items.length)
      else ((position? k).bind fun i => items[i]?).getD undefined) := by
  have hmember : value.member key = value.property k := by
    rw [member, hkey]
    rfl
  rw [hmember]
  cases value with
  | array _ =>
    cases hvalue
    rfl
  | string s =>
    cases hvalue
    have hunits : (fun i => (Units.at? s i).map string) =
        fun i => ((Units.ofText s).map fun unit => string (Units.toText unit))[i]? := by
      funext i
      rw [Units.at?, List.getElem?_map, Option.map_map]
      rfl
    rw [property, Units.count, List.length_map, Option.map_bind, ← hunits]
    rfl
  | _ => cases hvalue

/-- The key for the length spells no position. -/
theorem not_spells_length (i : Nat) : ¬Spells "length" i := fun h =>
  absurd ((spells_iff.1 h).2.1 'l' (by decide)) (by decide)

/-- What stands under a spelling of a position, and where this is another element than the numerals alone would give. -/
theorem position?_of_spells (h : Spells k i) :
    ((position? k).bind fun i => items[i]?).getD undefined = (if i < 2 ^ 64 then items[i]?.getD undefined else undefined) ∧
    ((numeral? k).bind fun i => items[i]?).getD undefined =
      (if k = Nat.repr i then items[i]?.getD undefined else undefined) := by
  constructor
  · split
    · rename_i hlt
      rw [position?_eq_some_iff.2 ⟨h, hlt⟩]
      rfl
    · rename_i hge
      have hnone : position? k = none := by
        refine Option.eq_none_iff_forall_ne_some.2 fun j hj => hge ?_
        obtain ⟨hspells, hlt⟩ := position?_eq_some_iff.1 hj
        rwa [h.unique hspells]
      rw [hnone]
      rfl
  · split
    · rename_i hk
      rw [numeral?_eq_some_iff.2 hk]
      rfl
    · rename_i hne
      have hnone : numeral? k = none := by
        refine Option.eq_none_iff_forall_ne_some.2 fun j hj => hne ?_
        have hk := numeral?_eq_some_iff.1 hj
        rwa [h.unique (hk ▸ spells_repr j)]
      rw [hnone]
      rfl

/-- Nothing stands under a key that spells no position. -/
theorem position?_of_not_spells (h : ∀ i < 2 ^ 64, ¬Spells k i) : position? k = none :=
  Option.eq_none_iff_forall_ne_some.2 fun i hi =>
    h i (position?_eq_some_iff.1 hi).2 (position?_eq_some_iff.1 hi).1

/-- A key that spells no position is no numeral. -/
theorem numeral?_of_not_spells (h : ∀ i, ¬Spells k i) : numeral? k = none :=
  Option.eq_none_iff_forall_ne_some.2 fun i hi => h i (numeral?_eq_some_iff.1 hi ▸ spells_repr i)

/-- A choice between two different values tells by which condition it was made. -/
theorem ite_eq_ite_iff_of_ne {α : Type} {p q : Prop} [Decidable p] [Decidable q] {a b : α} (h : a ≠ b) :
    ((if p then a else b) = if q then a else b) ↔ (p ↔ q) := by
  by_cases hp : p <;> by_cases hq : q <;> simp [hp, hq, h, h.symm]

/-- An array or a text gives its number of elements under `length`, an element under each spelling of its position, and
nothing under any other key. This is what the numerals alone would give, unless a key spells the position of an element
without being its numeral, or is the numeral of a position past 64 bits. -/
theorem member_elements_iff (hvalue : value.elements? = some items) (hkey : key.toText = .ok k) :
    (k = "length" → value.member key = .ok (number (Float.ofNat items.length))) ∧
    (∀ i, Spells k i → i < 2 ^ 64 → value.member key = .ok (items[i]?.getD undefined)) ∧
    (k ≠ "length" → (∀ i < 2 ^ 64, ¬Spells k i) → value.member key = .ok undefined) ∧
    (value.member key = .ok (namedElement items k) ↔
      ∀ i, Spells k i → items[i]?.getD undefined ≠ undefined → (k = Nat.repr i ↔ i < 2 ^ 64)) := by
  rw [member_elements hvalue hkey, namedElement]
  by_cases hlength : k = "length"
  · subst hlength
    rw [if_pos rfl, if_pos rfl]
    exact ⟨fun _ => rfl, fun i h => absurd h (not_spells_length i), fun h => absurd rfl h,
      iff_of_true rfl fun i h => absurd h (not_spells_length i)⟩
  · rw [if_neg hlength, if_neg hlength]
    refine ⟨fun h => absurd h hlength, fun i h hlt => ?_, fun _ h => ?_, ?_⟩
    · rw [(position?_of_spells h).1, if_pos hlt]
    · rw [position?_of_not_spells h]
      rfl
    · by_cases hspells : ∃ i, Spells k i
      · obtain ⟨i, h⟩ := hspells
        -- a key spells one position at most, so it is that one that counts
        have hunique : (∀ j, Spells k j → items[j]?.getD undefined ≠ undefined → (k = Nat.repr j ↔ j < 2 ^ 64)) ↔
            (items[i]?.getD undefined ≠ undefined → (k = Nat.repr i ↔ i < 2 ^ 64)) :=
          ⟨fun hall => hall i h, fun hone j hj => h.unique hj ▸ hone⟩
        rw [hunique, (position?_of_spells h).1, (position?_of_spells h).2, Except.ok.injEq]
        -- where there is no element both readings give nothing
        by_cases hnothing : items[i]?.getD undefined = undefined
        · rw [hnothing, ite_self, ite_self]
          exact iff_of_true rfl fun h => absurd rfl h
        · rw [ite_eq_ite_iff_of_ne hnothing]
          exact ⟨fun h _ => h.symm, fun h => (h hnothing).symm⟩
      · have hnone : ∀ i, ¬Spells k i := fun i h => hspells ⟨i, h⟩
        rw [position?_of_not_spells fun i _ => hnone i, numeral?_of_not_spells hnone]
        exact iff_of_true rfl fun i h => absurd h (hnone i)

/-- The text of two letters has its second letter under the number one. -/
theorem member_elements_one : (string "ab").elements? = some [string "a", string "b"] ∧
    (number 1.0).toText = .ok "1" ∧ (string "ab").member (number 1.0) = .ok (string "b") := by
  have helements : (string "ab").elements? = some [string "a", string "b"] := rfl
  have htext : (number 1.0).toText = .ok "1" := by rfl
  exact ⟨helements, htext, (member_elements_iff helements htext).2.1 1 (spells_repr 1) (by decide)⟩

/-- The second of two elements stands also under keys that are not the numeral of any position. -/
theorem member_elements_misspelt : (∀ k ∈ ["01", "+1"], ∀ i, k ≠ Nat.repr i) ∧
    (∀ k ∈ ["01", "+1"], (array [string "a", string "b"]).member (string k) = .ok (string "b") ∧
      (string "ab").member (string k) = .ok (string "b")) := by
  refine ⟨fun k hk i heq => ?_, fun k hk => ?_⟩
  · -- each of them spells the number one, so it could only be the numeral of this
    have hspells : Spells k 1 := by
      rcases List.mem_pair.1 hk with rfl | rfl
      · exact ⟨"", by decide, 1, by rfl⟩
      · exact ⟨"+", by decide, 0, by rfl⟩
    obtain rfl := hspells.unique (heq ▸ spells_repr i)
    rcases List.mem_pair.1 hk with rfl | rfl <;> exact absurd heq (by decide)
  · rcases List.mem_pair.1 hk with rfl | rfl <;> exact ⟨by rfl, by rfl⟩

end Value

end Prebake
