import Prebake.Proofs.Number.Decimal
import Prebake.Value.Coercion

/-!
# Which texts are read as numbers

`readNumber` takes blanks off both ends of a text and reads what is left as a number if it is empty, a decimal numeral or a
word for infinity, the latter two with an optional sign. Here these texts are described by a grammar, and
`isNaN_readNumber_iff` says that exactly they denote a number. The word `nan` is read, too, but it denotes none.
-/

namespace Prebake

namespace NumericText

/-! ## Texts that denote a number -/

/-- At least one digit and nothing else. -/
def IsDigits (isDigit : Char → Bool) (s : List Char) : Prop := s ≠ [] ∧ ∀ c ∈ s, isDigit c = true

/-- What may stand before a numeral. -/
def signs : List (List Char) := [[], ['+'], ['-']]

/-- A sign or none, and a text. -/
def Signed (IsBody : List Char → Prop) (s : List Char) : Prop := ∃ sign ∈ signs, ∃ body, IsBody body ∧ s = sign ++ body

/-- Nothing, or `e` and a whole number. -/
inductive IsExponent : List Char → Prop
  | absent : IsExponent []
  | present {mark : Char} {digits : List Char} (hmark : mark = 'e' ∨ mark = 'E')
      (hdigits : Signed (IsDigits Char.isDigit) digits) : IsExponent (mark :: digits)

/-- A decimal numeral: digits, a point among, before or after them if need be, and an exponent. -/
inductive IsDecimal : List Char → Prop
  | whole {digits exponent : List Char} (hdigits : IsDigits Char.isDigit digits) (hexponent : IsExponent exponent) :
      IsDecimal (digits ++ exponent)
  | pointed {digits places exponent : List Char} (hdigits : IsDigits Char.isDigit digits)
      (hplaces : ∀ c ∈ places, c.isDigit = true) (hexponent : IsExponent exponent) :
      IsDecimal (digits ++ '.' :: (places ++ exponent))
  | fraction {places exponent : List Char} (hplaces : IsDigits Char.isDigit places) (hexponent : IsExponent exponent) :
      IsDecimal ('.' :: (places ++ exponent))

/-- Infinity in one of its spellings, in any letter case. -/
def IsInfinityWord (s : List Char) : Prop :=
  s.map Char.toLower = "inf".toList ∨ s.map Char.toLower = "infinity".toList

/-- A text that is read as a number, once there are no blanks at its ends. -/
def IsRead (s : List Char) : Prop := s = [] ∨ Signed (fun body => IsInfinityWord body ∨ IsDecimal body) s

/-! ## Digits -/

variable {isDigit : Char → Bool} {digits rest s : List Char}

/-- The digits at the start of a text end where something else begins. -/
theorem takeWhile_digits (hdigits : ∀ c ∈ digits, isDigit c = true) (hrest : ∀ c ∈ rest.head?, isDigit c = false) :
    (digits ++ rest).takeWhile isDigit = digits ∧ (digits ++ rest).dropWhile isDigit = rest := by
  have hnone : rest.takeWhile isDigit = [] ∧ rest.dropWhile isDigit = rest := by
    cases rest with
    | nil => exact ⟨rfl, rfl⟩
    | cons c rest =>
      have hc := hrest c rfl
      exact ⟨List.takeWhile_cons_of_neg (by simp [hc]), List.dropWhile_cons_of_neg (by simp [hc])⟩
  rw [List.takeWhile_append_of_pos hdigits, List.dropWhile_append_of_pos hdigits, hnone.1, hnone.2, List.append_nil]
  exact ⟨rfl, rfl⟩

theorem IsDigits.exists_cons (h : IsDigits isDigit s) : ∃ c rest, s = c :: rest ∧ isDigit c = true := by
  obtain ⟨hne, hall⟩ := h
  obtain ⟨c, rest, rfl⟩ := List.exists_cons_of_ne_nil hne
  exact ⟨c, rest, rfl, hall c List.mem_cons_self⟩

/-! ## Signs -/

/-- What is said of texts can be said of signed texts. -/
theorem Signed.mono {P Q : List Char → Prop} (h : Signed P s) (hPQ : ∀ body, P body → Q body) : Signed Q s := by
  obtain ⟨sign, hsign, body, hbody, rfl⟩ := h
  exact ⟨sign, hsign, body, hPQ body hbody, rfl⟩

/-- A text without its sign. -/
def unsigned : List Char → List Char
  | '-' :: s => s
  | '+' :: s => s
  | s => s

/-- Where nothing that starts with a sign can stand after a sign, it is told by its sign whether a text is signed. -/
theorem signed_iff {P : List Char → Prop} (hP : ∀ body, P body → ∀ c ∈ body.head?, c ≠ '+' ∧ c ≠ '-') :
    Signed P s ↔ P (unsigned s) := by
  constructor
  · rintro ⟨sign, hsign, body, hbody, rfl⟩
    simp only [signs, List.mem_cons, List.not_mem_nil, or_false] at hsign
    rcases hsign with rfl | rfl | rfl
    · have hhead := hP body hbody
      rw [List.nil_append]
      unfold unsigned
      split
      · exact absurd rfl (hhead _ rfl).2
      · exact absurd rfl (hhead _ rfl).1
      · exact hbody
    · exact hbody
    · exact hbody
  · intro h
    unfold unsigned at h
    split at h
    · exact ⟨['-'], by decide, _, h, rfl⟩
    · exact ⟨['+'], by decide, _, h, rfl⟩
    · exact ⟨[], by decide, _, h, rfl⟩

/-- Digits do not start with a sign. -/
theorem IsDigits.head_ne_sign (h : IsDigits Char.isDigit s) : ∀ c ∈ s.head?, c ≠ '+' ∧ c ≠ '-' := by
  obtain ⟨c, rest, rfl, hc⟩ := h.exists_cons
  intro d hd
  cases hd
  constructor <;> rintro rfl <;> exact absurd hc (by decide)

/-! ## Decimal numerals -/

/-- Exponents are read if they have the form of one. -/
theorem isSome_readExponent?_iff : (Decimal.readExponent? s).isSome = true ↔ IsExponent s := by
  cases s with
  | nil => exact iff_of_true rfl .absent
  | cons mark digits =>
    have hpresent : IsExponent (mark :: digits) ↔ (mark = 'e' ∨ mark = 'E') ∧ IsDigits Char.isDigit (unsigned digits) := by
      have hsigned := signed_iff (s := digits) fun _ h => IsDigits.head_ne_sign h
      constructor
      · intro h
        cases h with
        | present hmark hdigits => exact ⟨hmark, hsigned.1 hdigits⟩
      · exact fun h => .present h.1 (hsigned.2 h.2)
    -- a sign decides whether the exponent is negative, not whether it is one
    have hdigits : ∀ (negative : Bool) (digits : List Char),
        (if digits.isEmpty || !digits.all Char.isDigit then none
          else some (if negative then -(ofDigits 10 digits : Int) else ofDigits 10 digits)).isSome = true ↔
        IsDigits Char.isDigit digits := by
      intro negative digits
      rw [IsDigits, ← List.all_eq_true, ← List.isEmpty_eq_false_iff]
      cases digits.isEmpty <;> cases digits.all Char.isDigit <;> simp
    rw [hpresent]
    unfold Decimal.readExponent?
    dsimp only
    by_cases hmark : mark = 'e' ∨ mark = 'E'
    · rw [if_pos (by simpa using hmark), and_iff_right hmark]
      fun_cases unsigned digits with
      | case1 digits => exact hdigits true digits
      | case2 digits => exact hdigits false digits
      | case3 digits hminus hplus =>
        split
        · exact absurd rfl (hminus _)
        · exact absurd rfl (hplus _)
        · exact hdigits false digits
    · rw [if_neg (by simpa using hmark)]
      exact iff_of_false Bool.false_ne_true fun h => hmark h.1

/-- An exponent goes on with neither a digit nor the point of the number before it. -/
theorem IsExponent.head_not_isDigit (h : IsExponent s) : ∀ c ∈ s.head?, c.isDigit = false ∧ c ≠ '.' := by
  cases h with
  | absent => exact nofun
  | present hmark _ =>
    intro c hc
    cases hc
    rcases hmark with rfl | rfl <;> decide

/-- A decimal numeral starts with a digit or a point. -/
theorem IsDecimal.head (h : IsDecimal s) : ∃ c rest, s = c :: rest ∧ (c.isDigit = true ∨ c = '.') := by
  cases h with
  | whole hdigits _ | pointed hdigits _ _ =>
    obtain ⟨c, rest, rfl, hc⟩ := hdigits.exists_cons
    exact ⟨c, _, rfl, Or.inl hc⟩
  | fraction _ _ => exact ⟨'.', _, rfl, Or.inr rfl⟩

/-- Decimal numerals are read if they have the form of one. -/
theorem isSome_readUnsigned?_iff : (Decimal.readUnsigned? s).isSome = true ↔ IsDecimal s := by
  -- whatever is cut into digits, places and exponent is read if there are any digits and the exponent is one
  have hparts : ∀ whole places exponent : List Char,
      (if whole.isEmpty && places.isEmpty then none
        else (Decimal.readExponent? exponent).map (Decimal.ofParts whole places)).isSome = true ↔
      (whole ≠ [] ∨ places ≠ []) ∧ IsExponent exponent := by
    intro whole places exponent
    rw [← isSome_readExponent?_iff, ← List.isEmpty_eq_false_iff, ← List.isEmpty_eq_false_iff]
    cases whole.isEmpty <;> cases places.isEmpty <;> simp
  have hall : ∀ digits : List Char, ∀ c ∈ digits.takeWhile Char.isDigit, c.isDigit = true := fun _ =>
    List.all_eq_true.1 List.all_takeWhile
  unfold Decimal.readUnsigned?
  dsimp only
  constructor
  · intro h
    have hs := List.takeWhile_append_dropWhile (p := Char.isDigit) (l := s)
    split at h
    · rename_i more hmore
      obtain ⟨hsome, hexponent⟩ := (hparts _ _ _).1 h
      rw [← hs, hmore, ← List.takeWhile_append_dropWhile (p := Char.isDigit) (l := more)]
      -- behind a point digits may be missing on one of its two sides
      by_cases hwhole : s.takeWhile Char.isDigit = []
      · rw [hwhole]
        exact .fraction ⟨hsome.resolve_left (fun h => h hwhole), hall _⟩ hexponent
      · exact .pointed ⟨hwhole, hall _⟩ (hall _) hexponent
    · obtain ⟨hsome, hexponent⟩ := (hparts _ _ _).1 h
      rw [← hs]
      exact .whole ⟨hsome.resolve_right (fun h => h rfl), hall _⟩ hexponent
  · intro h
    cases h with
    | whole hdigits hexponent =>
      obtain ⟨htake, hdrop⟩ := takeWhile_digits hdigits.2 fun c hc => (hexponent.head_not_isDigit c hc).1
      rw [htake, hdrop]
      split
      · exact absurd rfl (hexponent.head_not_isDigit _ rfl).2
      · exact (hparts _ _ _).2 ⟨Or.inl hdigits.1, hexponent⟩
    | @pointed digits places exponent hdigits hplaces hexponent =>
      have hpoint : ∀ c ∈ ('.' :: (places ++ exponent)).head?, c.isDigit = false := by simp
      obtain ⟨htake, hdrop⟩ := takeWhile_digits hdigits.2 hpoint
      obtain ⟨hmore, hrest⟩ := takeWhile_digits hplaces fun c hc => (hexponent.head_not_isDigit c hc).1
      simp only [htake, hdrop, hmore, hrest]
      exact (hparts _ _ _).2 ⟨Or.inl hdigits.1, hexponent⟩
    | @fraction places exponent hplaces hexponent =>
      obtain ⟨hmore, hrest⟩ := takeWhile_digits hplaces.2 fun c hc => (hexponent.head_not_isDigit c hc).1
      have htake : ('.' :: (places ++ exponent)).takeWhile Char.isDigit = [] := rfl
      have hdrop : ('.' :: (places ++ exponent)).dropWhile Char.isDigit = '.' :: (places ++ exponent) := rfl
      simp only [htake, hdrop, hmore, hrest]
      exact (hparts _ _ _).2 ⟨Or.inr hplaces.1, hexponent⟩

/-! ## Words -/

/-- Words are read whatever the case of their letters. -/
theorem readWord?_eq (s : List Char) : Decimal.readWord? s =
    if s.map Char.toLower = "inf".toList ∨ s.map Char.toLower = "infinity".toList then some infinity
    else if s.map Char.toLower = "nan".toList then some notANumber
    else none := by
  have hword : ∀ word : String, String.ofList (s.map Char.toLower) = word ↔ s.map Char.toLower = word.toList := by
    intro word
    rw [← String.toList_inj, String.toList_ofList]
  unfold Decimal.readWord?
  simp only [← hword]
  split
  · rename_i h
    rw [if_pos (Or.inl h)]
  · rename_i h
    rw [if_pos (Or.inr h)]
  · rename_i h
    simp [h]
  · rename_i hinf hinfinity hnan
    rw [if_neg (fun h => h.elim hinf hinfinity), if_neg hnan]

/-- What becomes a letter is one. -/
theorem isAlpha_of_toLower {c : Char} (h : c.toLower.isAlpha = true) : c.isAlpha = true := by
  unfold Char.toLower at h
  split at h
  · rename_i hupper
    rw [Char.isAlpha, Bool.or_eq_true]
    exact Or.inl (by simpa [Char.isUpper] using hupper)
  · exact h

/-- A text consists of letters if it does in lower case. -/
theorem isAlpha_of_map_toLower {word : List Char} (hword : word.all Char.isAlpha = true) (h : s.map Char.toLower = word) :
    ∀ c ∈ s, c.isAlpha = true := by
  intro c hc
  exact isAlpha_of_toLower (List.all_eq_true.1 hword _ (h ▸ List.mem_map_of_mem hc))

/-- A word for infinity consists of letters. -/
theorem IsInfinityWord.isAlpha (h : IsInfinityWord s) : ∀ c ∈ s, c.isAlpha = true := by
  rcases h with h | h <;> exact isAlpha_of_map_toLower (by decide) h

theorem IsInfinityWord.ne_nil (h : IsInfinityWord s) : s ≠ [] := by
  rintro rfl
  rcases h with h | h <;> cases h

theorem not_isAlpha_of_isDigit {c : Char} (h : c.isDigit = true) : c.isAlpha = false := by
  simp [Char.isDigit, UInt32.le_iff_toNat_le] at h
  simp [Char.isAlpha, Char.isUpper, Char.isLower, UInt32.le_iff_toNat_le]
  omega

/-- No text with a letter at its start is a decimal numeral. -/
theorem IsDecimal.head_not_isAlpha (h : IsDecimal s) : ∀ c ∈ s.head?, c.isAlpha = false := by
  obtain ⟨c, rest, rfl, hc⟩ := h.head
  intro d hd
  cases hd
  rcases hc with hc | rfl
  · exact not_isAlpha_of_isDigit hc
  · rfl

/-- A decimal numeral has a digit in it, so it is no word. -/
theorem IsDecimal.not_all_isAlpha (h : IsDecimal s) : ¬∀ c ∈ s, c.isAlpha = true := by
  intro hall
  obtain ⟨c, rest, rfl, -⟩ := h.head
  exact absurd (hall c List.mem_cons_self) (by simp [h.head_not_isAlpha c rfl])

/-- What is read as a number without a sign starts with none. -/
theorem head_ne_sign (h : IsInfinityWord s ∨ IsDecimal s) : ∀ c ∈ s.head?, c ≠ '+' ∧ c ≠ '-' := by
  intro c hc
  rcases h with h | h
  · have halpha := h.isAlpha c (List.mem_of_mem_head? hc)
    constructor <;> rintro rfl <;> exact absurd halpha (by decide)
  · obtain ⟨_, rest, rfl, hdigit⟩ := h.head
    cases hc
    constructor <;> rintro rfl <;> exact absurd hdigit (by decide)

/-- Words for infinity and decimal numerals denote numbers. -/
theorem isNaN_readMagnitude?_iff :
    ((Decimal.readMagnitude? s).getD notANumber).isNaN = false ↔ IsInfinityWord s ∨ IsDecimal s := by
  have hnone : notANumber.isNaN ≠ false := by
    rw [isNaN_notANumber]
    exact nofun
  unfold Decimal.readMagnitude?
  rw [readWord?_eq]
  split
  · rename_i hword
    exact iff_of_true isNaN_infinity (Or.inl hword)
  · rename_i hword
    split
    · rename_i hnan
      refine iff_of_false hnone ?_
      rintro (h | h)
      · exact hword h
      · exact h.not_all_isAlpha (isAlpha_of_map_toLower (by decide) hnan)
    · rw [Option.none_or, or_iff_right (show ¬IsInfinityWord s from hword), ← isSome_readUnsigned?_iff]
      cases Decimal.readUnsigned? s with
      | none => exact iff_of_false hnone nofun
      | some d => exact iff_of_true d.isNaN_toFloat rfl

/-- Words for infinity and decimal numerals denote numbers with a sign and without one. -/
theorem isNaN_read?_iff :
    ((Decimal.read? s).getD notANumber).isNaN = false ↔ Signed (fun body => IsInfinityWord body ∨ IsDecimal body) s := by
  rw [signed_iff fun _ h => head_ne_sign h, ← isNaN_readMagnitude?_iff]
  fun_cases unsigned s with
  | case1 s =>
    show (((Decimal.readMagnitude? s).map fun x => -x).getD notANumber).isNaN = false ↔ _
    cases Decimal.readMagnitude? s with
    | none => exact Iff.rfl
    | some x =>
      rw [Option.map_some, Option.getD_some, Option.getD_some, isNaN_neg]
  | case2 s => exact Iff.rfl
  | case3 s hminus hplus =>
    unfold Decimal.read?
    split
    · exact absurd rfl (hminus _)
    · exact absurd rfl (hplus _)
    · exact Iff.rfl

/-- A text denotes a number if it is read as one without the blanks at its ends. -/
theorem isNaN_readNumber_iff (s : String) : (readNumber s).isNaN = false ↔ IsRead (trimBlank s.toList) := by
  unfold readNumber IsRead
  dsimp only
  rw [← isNaN_read?_iff]
  split
  · rename_i hempty
    exact iff_of_true isNaN_zero (Or.inl (List.isEmpty_iff.1 hempty))
  · rename_i hempty
    rw [or_iff_right]
    simpa using hempty

end NumericText

end Prebake
