import Prebake.Expr.Quoted

/-!
# Tokens of expressions

`Token.next` reads one token after blanks and comments. A text that is no token gives `invalid`, which no rule of the
grammar accepts. The sign `>` is always read alone, since it may close two lists of types in a row; `Token.widen`
joins it to what follows where an operator is expected.
-/

namespace Prebake

/-- The tokens of a source. -/
inductive Token where
  | finish
  | invalid
  /-- A name or a keyword; an escape in it makes it no keyword. -/
  | word (name : String) (escaped : Bool)
  /-- `#name` -/
  | privateName
  | numeral (n : Numeral)
  | string (s : String)
  /-- The first part of a template. -/
  | template (text : Option String) (last : Bool)
  | sign (s : String)
deriving DecidableEq

namespace Token

/-- Where the reader of blanks stands. -/
inductive Blank where
  | between
  | lineComment
  | blockComment

/-- Skips blanks and comments, and tells whether a line ended among them. A block comment must be closed. -/
def skipBlank : Blank → Bool → List Char → Option (Bool × List Char)
  | .between, newline, '/' :: '/' :: s => skipBlank .lineComment newline s
  | .between, newline, '/' :: '*' :: s => skipBlank .blockComment newline s
  | .between, newline, c :: s =>
    if isLineEnd c then skipBlank .between true s
    else if isScriptBlank c then skipBlank .between newline s
    else some (newline, c :: s)
  | .lineComment, newline, c :: s =>
    if isLineEnd c then skipBlank .between true s else skipBlank .lineComment newline s
  | .blockComment, newline, '*' :: '/' :: s => skipBlank .between newline s
  | .blockComment, newline, c :: s => skipBlank .blockComment (newline || isLineEnd c) s
  | .blockComment, _, [] => none
  | _, newline, [] => some (newline, [])

/-- The character that an escape inside a name stands for, with the number of characters after the backslash. -/
def nameEscape? : List Char → Option (Char × Nat)
  | 'u' :: '{' :: s =>
    (Quoted.braced? s).bind fun (n, taken) => if Quoted.isSurrogate n then none else some (Char.ofNat n, taken + 2)
  | 'u' :: s =>
    (Quoted.fixedHex? 4 s).bind fun n => if Quoted.isSurrogate n then none else some (Char.ofNat n, 5)
  | _ => none

/-- The characters of a name, whether an escape is among them, and what follows. The first number says how many
characters belong to an escape that has been read already; `first` holds at the beginning of the name. -/
def nameBody : Nat → Bool → List Char → Option (List Char × Bool × List Char)
  | _, _, [] => some ([], false, [])
  | skip + 1, first, _ :: s => nameBody skip first s
  | 0, first, c :: s =>
    let fits (d : Char) : Bool := if first then Identifier.isStart d else Identifier.isContinue d
    if c = '\\' then do
      let (d, taken) ← nameEscape? s
      if fits d then
        let (more, _, rest) ← nameBody taken false s
        return (d :: more, true, rest)
      else none
    else if fits c then (nameBody 0 false s).map fun (more, escaped, rest) => (c :: more, escaped, rest)
    else some ([], false, c :: s)

/-- A name, which has at least one character. -/
def name? (s : List Char) : Option (String × Bool × List Char) :=
  (nameBody 0 true s).bind fun (name, escaped, rest) =>
    if name.isEmpty then none else some (String.ofList name, escaped, rest)

/-- The signs of more than one character, longer ones first where one begins another. -/
def longSigns : List String :=
  ["...", "===", "!==", "**=", "<<=", "&&=", "||=", "??=", "=>", "==", "!=", "++", "--", "+=", "-=", "**", "*=", "/=",
    "%=", "<<", "<=", "&&", "&=", "||", "|=", "^=", "??"]

/-- The characters that are signs by themselves. -/
def shortSigns : List Char := "(){}[];,<>+-*/%&|^!~?:=.@".toList

/-- A sign. The sign `?.` is none when a digit follows. -/
def sign? (s : List Char) : Option (String × List Char) :=
  match s with
  | '?' :: '.' :: rest =>
    if rest.head?.any Char.isDigit then some ("?", '.' :: rest) else some ("?.", rest)
  | _ =>
    match longSigns.find? fun long => long.toList.isPrefixOf s with
    | some long => some (long, s.drop long.length)
    | none =>
      match s with
      | c :: rest => if shortSigns.contains c then some (String.singleton c, rest) else none
      | [] => none

/-- The token at the start of a text that does not start with a blank. -/
def read (s : List Char) : Token × List Char :=
  match s with
  | [] => (finish, [])
  | c :: rest =>
    if c = '"' || c = '\'' then
      match Quoted.string? c rest with
      | some (text, rest) => (string text, rest)
      | none => (invalid, [])
    else if c = '\x60' then
      match Quoted.part? rest with
      | some part => (template part.text part.last, part.rest)
      | none => (invalid, [])
    else if c.isDigit || (c = '.' && rest.head?.any Char.isDigit) then
      match Numeral.read s with
      | some (n, rest) => (numeral n, rest)
      | none => (invalid, [])
    else if c = '#' then
      match name? rest with
      | some (_, _, rest) => (privateName, rest)
      | none => (invalid, [])
    else
      match sign? s with
      | some (text, rest) => (sign text, rest)
      | none =>
        match name? s with
        | some (name, escaped, rest) => (word name escaped, rest)
        | none => (invalid, [])

/-! ### Words -/

/-- Whether a word consists of characters of names; all other tokens are proper. -/
def IsProper : Token → Prop
  | word name _ => Identifier.IsName name
  | _ => True

/-- Each character of a name was read as one that fits there. -/
theorem isContinue_of_nameBody {skip : Nat} {first escaped : Bool} {s name rest : List Char}
    (h : nameBody skip first s = some (name, escaped, rest)) : ∀ c ∈ name, Identifier.isContinue c = true := by
  fun_induction nameBody skip first s generalizing name escaped rest
  case case1 =>
    cases h
    simp
  case case2 ih => exact ih h
  case case3 ih =>
    simp only [Option.bind_eq_bind, Option.bind_eq_some_iff] at h
    obtain ⟨⟨d, taken⟩, -, h⟩ := h
    dsimp only at h
    split at h
    · rename_i hfits
      obtain ⟨⟨more, _, _⟩, hmore, heq⟩ := Option.bind_eq_some_iff.1 h
      cases heq
      exact List.forall_mem_cons.2 ⟨Identifier.isContinue_of_fits hfits, ih taken hmore⟩
    · cases h
  case case4 hfits ih =>
    obtain ⟨⟨more, _, _⟩, hmore, heq⟩ := Option.map_eq_some_iff.1 h
    cases heq
    exact List.forall_mem_cons.2 ⟨Identifier.isContinue_of_fits hfits, ih hmore⟩
  case case5 =>
    cases h
    simp

theorem isName_of_name? {s rest : List Char} {name : String} {escaped : Bool} (h : name? s = some (name, escaped, rest)) :
    Identifier.IsName name := by
  obtain ⟨⟨chars, _, _⟩, hbody, h⟩ := Option.bind_eq_some_iff.1 h
  dsimp only at h
  split at h
  · cases h
  · cases h
    rw [Identifier.IsName, String.toList_ofList]
    exact isContinue_of_nameBody hbody

/-- Every token that is read is proper. -/
theorem isProper_read (s : List Char) : (read s).1.IsProper := by
  unfold read
  repeat' split
  any_goals trivial
  rename_i hname
  exact isName_of_name? hname

/-! ### Wide signs -/

/-- The operators that begin with `>`, longest first. -/
def wideSigns : List String := [">>>=", ">>>", ">>=", ">>", ">="]

/-- The operator that begins with `>` at the start of a text. -/
def widen (s : List Char) : Token × List Char :=
  match wideSigns.find? fun wide => wide.toList.isPrefixOf s with
  | some text => (sign text, s.drop text.length)
  | none => (sign ">", s.drop 1)

theorem isProper_widen (s : List Char) : (widen s).1.IsProper := by
  unfold widen
  split <;> trivial

end Token

end Prebake
