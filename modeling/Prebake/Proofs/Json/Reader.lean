import Prebake.Json.Reader
import Prebake.Proofs.Json.Scalar

/-!
# Reading texts that are spelled out

What the readers of tokens do on a text whose next characters are known, and how the parts of a list or of an object are read one
after the other (`partLoop_parts`). Lists and objects are read alike: only how they tell whether another part follows is different
(`Separates`).
-/

namespace Prebake.Json

namespace Layout

/-- Lines are broken and indented with blanks. -/
theorem isBlank_newline (layout : Layout) : ∀ b ∈ layout.newline, Reader.isBlank b := by
  intro b hb
  cases layout with
  | compact => cases hb
  | lines level =>
    rcases List.mem_cons.1 hb with rfl | hb
    · rfl
    · rw [List.eq_of_mem_replicate hb]
      rfl

end Layout

namespace Reader

variable {α β σ : Type} {c : Char} {s rest blanks : List Char}

/-- A reader goes on behind what its first step reads. -/
theorem bind_ok {read : Reader α} {next : α → Reader β} {a : α} (h : read s = .ok (a, rest)) :
    (read >>= next) s = next a rest := by
  show read s >>= _ = _
  rw [h]
  rfl

/-- A reader fails where its first step fails. -/
theorem bind_error {read : Reader α} {next : α → Reader β} {fault : Fault} (h : read s = .error fault) :
    (read >>= next) s = .error fault := by
  show read s >>= _ = _
  rw [h]
  rfl

/-! ## Tokens -/

/-- Blanks before a token are passed over. -/
theorem peek_blanks (hblanks : ∀ b ∈ blanks, isBlank b) (s : List Char) : peek (blanks ++ s) = peek s := by
  show Except.ok ((List.dropWhile isBlank (blanks ++ s)).head?, List.dropWhile isBlank (blanks ++ s)) = _
  rw [List.dropWhile_append_of_pos hblanks]
  rfl

/-- A character that is no blank is the next one. -/
theorem peek_cons (hc : isBlank c = false) : peek (c :: rest) = .ok (some c, c :: rest) := by
  show Except.ok ((List.dropWhile isBlank (c :: rest)).head?, List.dropWhile isBlank (c :: rest)) = _
  rw [List.dropWhile_cons_of_neg (by rw [hc]; exact Bool.false_ne_true)]
  rfl

theorem isBlank_iff : isBlank c = true ↔ ((c = ' ' ∨ c = '\n') ∨ c = '\t') ∨ c = '\r' := by
  simp only [isBlank, Bool.or_eq_true, beq_iff_eq]

/-- Behind blanks the next character is the first that is none. -/
theorem peek_append (hblanks : ∀ b ∈ blanks, isBlank b) (hc : isBlank c = false) :
    peek (blanks ++ c :: rest) = .ok (some c, c :: rest) := by
  rw [peek_blanks hblanks, peek_cons hc]

/-- The name of a field is read behind its quotation mark. -/
theorem fieldName_cons {name : String} {more : List Char} (hread : Text.read rest = .ok (name, more)) :
    fieldName ('"' :: rest) = .ok (name, more) :=
  (bind_ok (a := ()) rfl).trans hread

/-! ## Parts with commas between them -/

/-- How one tells whether another part follows: parts start with the characters of a class, and there are commas between them
up to a closing sign. Blanks may stand before each part and before the closing sign. -/
structure Separates (hasPart : Bool → Reader Bool) (close : Char) (Opens : Char → Prop) : Prop where
  none : ∀ (first : Bool) {blanks : List Char}, (∀ b ∈ blanks, isBlank b) → ∀ rest,
    hasPart first (blanks ++ close :: rest) = .ok (false, close :: rest)
  first : ∀ {blanks : List Char} {c : Char}, (∀ b ∈ blanks, isBlank b) → Opens c → ∀ rest,
    hasPart true (blanks ++ c :: rest) = .ok (true, c :: rest)
  next : ∀ {blanks : List Char} {c : Char}, (∀ b ∈ blanks, isBlank b) → Opens c → ∀ rest,
    hasPart false (',' :: (blanks ++ c :: rest)) = .ok (true, c :: rest)

/-- An object goes on behind a comma with a quotation mark, until a brace closes it. -/
theorem separates_hasField : Separates hasField '\x7d' (· = '"') where
  none _ _ hblanks _ := bind_ok (peek_append hblanks rfl)
  first hblanks hc rest := by
    subst hc
    exact bind_ok (peek_append hblanks rfl)
  next hblanks hc rest := by
    subst hc
    refine (bind_ok (peek_cons rfl)).trans ?_
    exact (bind_ok (a := ()) rfl).trans (bind_ok (peek_append hblanks rfl))

/-- The texts of the parts of a list or of an object, each after its blanks, with commas between them. -/
def parts (blanks : List Char) : Bool → List (List Char) → List Char
  | _, [] => []
  | first, text :: texts => (if first then blanks else ',' :: blanks) ++ (text ++ parts blanks false texts)

variable {hasPart : Bool → Reader Bool} {close : Char} {Opens : Char → Prop}

/-- One more part follows if there is a comma where one must be. -/
theorem Separates.part (hseparates : Separates hasPart close Opens) (hblanks : ∀ b ∈ blanks, isBlank b) (first : Bool)
    (hc : Opens c) (rest : List Char) :
    hasPart first ((if first then blanks else ',' :: blanks) ++ c :: rest) = .ok (true, c :: rest) := by
  cases first with
  | true => exact hseparates.first hblanks hc rest
  | false => exact hseparates.next hblanks hc rest

end Reader

end Prebake.Json
