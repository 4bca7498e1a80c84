import Prebake.Evaluation
import Prebake.Proofs.Number.Numeric

/-!
# Numbers in texts and numbers in scripts

A script takes white space and line ends off both ends of a text and reads what is left as a number if it is empty, a decimal
numeral or `Infinity`, the latter two with an optional sign, or a whole number in the base two, eight or sixteen
(`IsLiteral`). `readNumber` reads decimal numerals in the same way. But it does not read numbers in other bases, knows infinity
in other spellings, too, and takes off other characters: next line, but not the byte order mark. `toNumber_string_iff` says
that these are all differences.
-/

namespace Prebake

namespace NumericText

variable {s : List Char}

/-! ## Literals -/

/-- A whole number in another base than ten. -/
inductive IsInBase : List Char → Prop
  | two {mark : Char} {digits : List Char} (hmark : mark = 'b' ∨ mark = 'B') (hdigits : IsDigits Numeral.isBinary digits) :
      IsInBase ('0' :: mark :: digits)
  | eight {mark : Char} {digits : List Char} (hmark : mark = 'o' ∨ mark = 'O') (hdigits : IsDigits Numeral.isOctal digits) :
      IsInBase ('0' :: mark :: digits)
  | sixteen {mark : Char} {digits : List Char} (hmark : mark = 'x' ∨ mark = 'X') (hdigits : IsDigits Numeral.isHex digits) :
      IsInBase ('0' :: mark :: digits)

/-- A text that denotes a number in a script, once there are no spaces at its ends. -/
def IsLiteral (s : List Char) : Prop :=
  s = [] ∨ Signed (fun body => body = "Infinity".toList ∨ IsDecimal body) s ∨ IsInBase s

/-- Infinity in a spelling that scripts do not know. -/
def IsForeignWord (s : List Char) : Prop := Signed (fun body => IsInfinityWord body ∧ body ≠ "Infinity".toList) s

/-- Of the texts that are read as a number, those are literals that do not spell infinity in another way. -/
theorem isLiteral_iff_of_isRead (h : IsRead s) : IsLiteral s ↔ ¬IsForeignWord s := by
  constructor
  · intro hliteral hforeign
    obtain ⟨hword, hspelling⟩ := (signed_iff fun _ h => head_ne_sign (Or.inl h.1)).1 hforeign
    have hbody : ∀ body, body = "Infinity".toList ∨ IsDecimal body → ∀ c ∈ body.head?, c ≠ '+' ∧ c ≠ '-' := by
      rintro body (rfl | hdecimal)
      · rintro c ⟨rfl⟩
        decide
      · exact head_ne_sign (Or.inr hdecimal)
    rcases hliteral with rfl | hsigned | hbase
    · exact hword.ne_nil rfl
    · rcases (signed_iff hbody).1 hsigned with hinfinity | hdecimal
      · exact hspelling hinfinity
      · exact hdecimal.not_all_isAlpha hword.isAlpha
    · cases hbase <;> exact absurd (hword.isAlpha _ List.mem_cons_self) (by decide)
  · intro hforeign
    rcases h with rfl | ⟨sign, hsign, body, hword | hdecimal, rfl⟩
    · exact Or.inl rfl
    · by_cases hspelling : body = "Infinity".toList
      · exact Or.inr (Or.inl ⟨sign, hsign, body, Or.inl hspelling, rfl⟩)
      · exact absurd ⟨sign, hsign, body, ⟨hword, hspelling⟩, rfl⟩ hforeign
    · exact Or.inr (Or.inl ⟨sign, hsign, body, Or.inr hdecimal, rfl⟩)

/-- No whole number in another base is read. -/
theorem IsInBase.not_isRead (h : IsInBase s) : ¬IsRead s := by
  have hmark : ∃ mark digits, s = '0' :: mark :: digits ∧ mark ∈ ['b', 'B', 'o', 'O', 'x', 'X'] := by
    cases h with
    | two hmark _ | eight hmark _ | sixteen hmark _ =>
      refine ⟨_, _, rfl, ?_⟩
      rcases hmark with rfl | rfl <;> decide
  obtain ⟨mark, digits, rfl, hmark⟩ := hmark
  rintro (hnil | hsigned)
  · cases hnil
  · rcases (signed_iff fun _ h => head_ne_sign h).1 hsigned with hword | hdecimal
    · exact absurd (hword.isAlpha '0' List.mem_cons_self) (by decide)
    · -- the zero would have to be followed by a digit, a point or an exponent
      have hsome := isSome_readUnsigned?_iff.2 hdecimal
      simp only [List.mem_cons, List.not_mem_nil, or_false] at hmark
      rcases hmark with rfl | rfl | rfl | rfl | rfl | rfl <;> cases hsome

/-- Of the literals, those are read as a number that are not in another base. -/
theorem isRead_iff_of_isLiteral (h : IsLiteral s) : IsRead s ↔ ¬IsInBase s := by
  constructor
  · exact fun hread hbase => hbase.not_isRead hread
  · intro hbase
    rcases h with rfl | hsigned | h
    · exact Or.inl rfl
    · refine Or.inr (hsigned.mono ?_)
      rintro body (rfl | hdecimal)
      · exact Or.inl (Or.inr (by decide))
      · exact Or.inr hdecimal
    · exact absurd h hbase

/-! ## Characters of numbers -/

/-- A character of the texts that denote numbers. -/
def isNumeralChar (c : Char) : Bool := c.isAlphanum || c == '+' || c == '-' || c == '.'

theorem isNumeralChar_of_isAlpha {c : Char} (h : c.isAlpha = true) : isNumeralChar c = true := by
  simp [isNumeralChar, Char.isAlphanum, h]

theorem isNumeralChar_of_isDigit {c : Char} (h : c.isDigit = true) : isNumeralChar c = true := by
  simp [isNumeralChar, Char.isAlphanum, h]

/-- The digits of the base sixteen may stand in numbers. -/
theorem isNumeralChar_of_isHex {c : Char} (h : Numeral.isHex c = true) : isNumeralChar c = true := by
  simp only [Numeral.isHex, Bool.or_eq_true, Bool.and_eq_true, decide_eq_true_eq] at h
  rcases h with (h | h) | h
  · exact isNumeralChar_of_isDigit h
  · refine isNumeralChar_of_isAlpha ?_
    simp [Char.isAlpha, Char.isUpper, Char.isLower, Char.le_def, UInt32.le_iff_toNat_le] at h ⊢
    omega
  · refine isNumeralChar_of_isAlpha ?_
    simp [Char.isAlpha, Char.isUpper, Char.isLower, Char.le_def, UInt32.le_iff_toNat_le] at h ⊢
    omega

theorem isHex_of_isOctal {c : Char} (h : Numeral.isOctal c = true) : Numeral.isHex c = true := by
  simp [Numeral.isOctal, Numeral.isHex, Char.isDigit, Char.le_def, UInt32.le_iff_toNat_le] at h ⊢
  omega

theorem isOctal_of_isBinary {c : Char} (h : Numeral.isBinary c = true) : Numeral.isOctal c = true := by
  simp only [Numeral.isBinary, Bool.or_eq_true, beq_iff_eq] at h
  rcases h with rfl | rfl <;> decide

/-- Signs may stand in numbers, so it is what follows them that matters. -/
theorem Signed.isNumeralChar {P : List Char → Prop} (h : Signed P s)
    (hP : ∀ body, P body → ∀ c ∈ body, isNumeralChar c = true) : ∀ c ∈ s, isNumeralChar c = true := by
  obtain ⟨sign, hsign, body, hbody, rfl⟩ := h
  have hsigns : signs.all (List.all · NumericText.isNumeralChar) = true := by decide
  rw [List.forall_mem_append]
  exact ⟨List.all_eq_true.1 (List.all_eq_true.1 hsigns sign hsign), hP body hbody⟩

/-- An exponent consists of characters of numbers. -/
theorem IsExponent.isNumeralChar (h : IsExponent s) : ∀ c ∈ s, isNumeralChar c = true := by
  cases h with
  | absent => exact nofun
  | present hmark hdigits =>
    rw [List.forall_mem_cons]
    refine ⟨?_, hdigits.isNumeralChar fun body hbody c hc => isNumeralChar_of_isDigit (hbody.2 c hc)⟩
    rcases hmark with rfl | rfl <;> decide

/-- A decimal numeral consists of characters of numbers. -/
theorem IsDecimal.isNumeralChar (h : IsDecimal s) : ∀ c ∈ s, isNumeralChar c = true := by
  have hpoint : NumericText.isNumeralChar '.' = true := by decide
  cases h with
  | whole hdigits hexponent =>
    rw [List.forall_mem_append]
    exact ⟨fun c hc => isNumeralChar_of_isDigit (hdigits.2 c hc), hexponent.isNumeralChar⟩
  | pointed hdigits hplaces hexponent =>
    rw [List.forall_mem_append, List.forall_mem_cons, List.forall_mem_append]
    exact ⟨fun c hc => isNumeralChar_of_isDigit (hdigits.2 c hc), hpoint,
      fun c hc => isNumeralChar_of_isDigit (hplaces c hc), hexponent.isNumeralChar⟩
  | fraction hplaces hexponent =>
    rw [List.forall_mem_cons, List.forall_mem_append]
    exact ⟨hpoint, fun c hc => isNumeralChar_of_isDigit (hplaces.2 c hc), hexponent.isNumeralChar⟩

/-- Whatever is read consists of characters of numbers. -/
theorem IsRead.isNumeralChar (h : IsRead s) : ∀ c ∈ s, isNumeralChar c = true := by
  rcases h with rfl | hsigned
  · exact nofun
  · refine hsigned.isNumeralChar ?_
    rintro body (hword | hdecimal)
    · exact fun c hc => isNumeralChar_of_isAlpha (hword.isAlpha c hc)
    · exact hdecimal.isNumeralChar

/-- A number in another base consists of characters of numbers. -/
theorem IsInBase.isNumeralChar (h : IsInBase s) : ∀ c ∈ s, isNumeralChar c = true := by
  cases h with
  | two hmark hdigits =>
    rw [List.forall_mem_cons, List.forall_mem_cons]
    refine ⟨by decide, by rcases hmark with rfl | rfl <;> decide, fun c hc => ?_⟩
    exact isNumeralChar_of_isHex (isHex_of_isOctal (isOctal_of_isBinary (hdigits.2 c hc)))
  | eight hmark hdigits =>
    rw [List.forall_mem_cons, List.forall_mem_cons]
    refine ⟨by decide, by rcases hmark with rfl | rfl <;> decide, fun c hc => ?_⟩
    exact isNumeralChar_of_isHex (isHex_of_isOctal (hdigits.2 c hc))
  | sixteen hmark hdigits =>
    rw [List.forall_mem_cons, List.forall_mem_cons]
    exact ⟨by decide, by rcases hmark with rfl | rfl <;> decide, fun c hc => isNumeralChar_of_isHex (hdigits.2 c hc)⟩

/-- Whatever a script reads consists of characters of numbers. -/
theorem IsLiteral.isNumeralChar (h : IsLiteral s) : ∀ c ∈ s, isNumeralChar c = true := by
  rcases h with rfl | hsigned | hbase
  · exact nofun
  · refine hsigned.isNumeralChar ?_
    rintro body (rfl | hdecimal)
    · exact List.all_eq_true.1 (by decide)
    · exact hdecimal.isNumeralChar
  · exact hbase.isNumeralChar

/-! ## The ends of a text -/

/-- A text without characters at its ends that satisfy a condition. -/
def trim (p : Char → Bool) (s : List Char) : List Char := dropEnd p (dropStart p s)

/-- Next line, which is a blank but no space. -/
def nextLine : Char := '\u0085'

/-- The byte order mark, which is a space but no blank. -/
def byteOrderMark : Char := '\uFEFF'

/-- The characters that a script takes off the ends of a text: white space and line ends. -/
def isSpace (c : Char) : Bool :=
  inRanges [(0x09, 0x0D), (0x20, 0x20), (0xA0, 0xA0), (0x1680, 0x1680), (0x2000, 0x200A), (0x2028, 0x2029), (0x202F, 0x202F),
    (0x205F, 0x205F), (0x3000, 0x3000), (0xFEFF, 0xFEFF)] c.toNat

/-- Two characters apart, scripts take off what is taken off here. -/
theorem isSpace_eq {c : Char} (hline : c ≠ nextLine) (hmark : c ≠ byteOrderMark) : isSpace c = isBlank c := by
  have hline : c.toNat ≠ 0x85 := fun same => hline (Char.toNat_inj.1 same)
  have hmark : c.toNat ≠ 0xFEFF := fun same => hmark (Char.toNat_inj.1 same)
  rw [Bool.eq_iff_iff]
  simp [isSpace, isBlank, inRanges]
  omega

/-- What is not taken off at the start of a text stays in it. -/
theorem mem_dropStart {p : Char → Bool} {c : Char} (h : p c = false) : c ∈ dropStart p s ↔ c ∈ s := by
  induction s with
  | nil => exact Iff.rfl
  | cons d s ih =>
    unfold dropStart at ih ⊢
    rw [List.dropWhile_cons]
    split
    · rename_i hd
      rw [ih, List.mem_cons, or_iff_right]
      rintro rfl
      simp [h] at hd
    · exact Iff.rfl

/-- What is not taken off stays. -/
theorem mem_trim {p : Char → Bool} {c : Char} (h : p c = false) : c ∈ trim p s ↔ c ∈ s := by
  have hend : c ∈ dropEnd p (dropStart p s) ↔ c ∈ dropStart p (dropStart p s).reverse := List.mem_reverse
  rw [trim, hend, mem_dropStart h, List.mem_reverse, mem_dropStart h]

/-- What is taken off a text depends on its own characters only. -/
theorem trim_congr {p q : Char → Bool} (h : ∀ c ∈ s, p c = q c) : trim p s = trim q s := by
  have hcongr : ∀ t : List Char, (∀ c ∈ t, p c = q c) → t.dropWhile p = t.dropWhile q := by
    intro t ht
    induction t with
    | nil => rfl
    | cons c t ih =>
      rw [List.forall_mem_cons] at ht
      rw [List.dropWhile_cons, List.dropWhile_cons, ht.1, ih ht.2]
  have hkept : ∀ c ∈ (s.dropWhile q).reverse, p c = q c := fun c hc =>
    h c ((List.dropWhile_suffix q).subset (List.mem_reverse.1 hc))
  simp only [trim, dropEnd, dropStart, hcongr s h, hcongr _ hkept]

/-- Without the two characters that tell spaces and blanks apart, the same is taken off. -/
theorem trim_isSpace_eq (hline : nextLine ∉ s) (hmark : byteOrderMark ∉ s) : trim isSpace s = trim isBlank s :=
  trim_congr fun _ hc => isSpace_eq (fun same => hline (same ▸ hc)) fun same => hmark (same ▸ hc)

/-- A text that is read as a number is no literal only for a next line at its ends, or for the spelling of infinity. -/
theorem not_isLiteral_iff (h : IsRead (trim isBlank s)) :
    ¬IsLiteral (trim isSpace s) ↔ nextLine ∈ s ∨ IsForeignWord (trim isBlank s) := by
  by_cases hline : nextLine ∈ s
  · refine iff_of_true (fun hliteral => ?_) (Or.inl hline)
    have hkept : nextLine ∈ trim isSpace s := (mem_trim (by decide)).2 hline
    exact absurd (hliteral.isNumeralChar _ hkept) (by decide)
  · have hmark : byteOrderMark ∉ s := fun hmark =>
      absurd (h.isNumeralChar _ ((mem_trim (by decide)).2 hmark)) (by decide)
    rw [trim_isSpace_eq hline hmark, isLiteral_iff_of_isRead h, not_not, or_iff_right hline]

/-- A literal is not read as a number only for a byte order mark at its ends, or for its base. -/
theorem not_isRead_iff (h : IsLiteral (trim isSpace s)) :
    ¬IsRead (trim isBlank s) ↔ byteOrderMark ∈ s ∨ IsInBase (trim isSpace s) := by
  by_cases hmark : byteOrderMark ∈ s
  · refine iff_of_true (fun hread => ?_) (Or.inl hmark)
    have hkept : byteOrderMark ∈ trim isBlank s := (mem_trim (by decide)).2 hmark
    exact absurd (hread.isNumeralChar _ hkept) (by decide)
  · have hline : nextLine ∉ s := fun hline =>
      absurd (h.isNumeralChar _ ((mem_trim (by decide)).2 hline)) (by decide)
    rw [← trim_isSpace_eq hline hmark, isRead_iff_of_isLiteral h, not_not, or_iff_right hmark]

end NumericText

open NumericText

namespace Value

/-- The texts that are numbers, and all texts for which a script has another answer: it takes no next line off the ends of a
text and knows one spelling of infinity, but it takes byte order marks off and reads numbers in other bases. -/
theorem toNumber_string_iff (s : String) : ∃ x, (string s).toNumber = .ok x ∧
    (x.isNaN = false ↔ IsRead (trim isBlank s.toList)) ∧
    (x.isNaN = false ∧ ¬IsLiteral (trim isSpace s.toList) ↔
      IsRead (trim isBlank s.toList) ∧ (nextLine ∈ s.toList ∨ IsForeignWord (trim isBlank s.toList))) ∧
    (x.isNaN = true ∧ IsLiteral (trim isSpace s.toList) ↔
      IsLiteral (trim isSpace s.toList) ∧ (byteOrderMark ∈ s.toList ∨ IsInBase (trim isSpace s.toList))) := by
  have hread := isNaN_readNumber_iff s
  refine ⟨readNumber s, rfl, hread, ?_, ?_⟩
  · rw [hread]
    exact and_congr_right not_isLiteral_iff
  · rw [← Bool.not_eq_false, hread, and_comm]
    exact and_congr_right not_isRead_iff

/-- The text `inf` is read as infinity though it is no literal, and `0x10` is a literal though it is not read. -/
theorem toNumber_differs_from_literals :
    ((string "inf").toNumber = .ok infinity ∧ infinity.isNaN = false ∧ ¬IsLiteral (trim isSpace "inf".toList)) ∧
    (string "0x10").toNumber = .ok notANumber ∧ notANumber.isNaN = true ∧ IsLiteral (trim isSpace "0x10".toList) := by
  have hword : IsInfinityWord "inf".toList ∧ "inf".toList ≠ "Infinity".toList := ⟨Or.inl (by decide), by decide⟩
  have hread : IsRead "inf".toList := Or.inr ⟨[], by decide, _, Or.inl hword.1, rfl⟩
  have htrim : trim isSpace "inf".toList = "inf".toList := by decide
  have hdigits : IsDigits Numeral.isHex ['1', '0'] := ⟨by decide, List.all_eq_true.1 (by decide)⟩
  refine ⟨⟨rfl, isNaN_infinity, ?_⟩, rfl, isNaN_notANumber, Or.inr (Or.inr (.sixteen (Or.inl rfl) hdigits))⟩
  rw [htrim, isLiteral_iff_of_isRead hread, not_not]
  exact ⟨[], by decide, _, hword, rfl⟩

end Value

end Prebake
