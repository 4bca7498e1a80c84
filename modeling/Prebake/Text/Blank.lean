/-!
# White space

Two sets are in use. `isBlank` is the property White_Space, which decides what is trimmed off a text and what an
attribute name may not hold. `isScriptBlank` and `isLineEnd` are what separates the tokens of an expression.
-/

namespace Prebake

/-- The characters with the property White_Space. -/
def isBlank (c : Char) : Bool :=
  let n := c.toNat
  (0x09 ≤ n && n ≤ 0x0D) || n == 0x20 || n == 0x85 || n == 0xA0 || n == 0x1680 || (0x2000 ≤ n && n ≤ 0x200A)
    || n == 0x2028 || n == 0x2029 || n == 0x202F || n == 0x205F || n == 0x3000

/-- The characters that end a line inside an expression. -/
def isLineEnd (c : Char) : Bool :=
  c == '\n' || c == '\r' || c.toNat == 0x2028 || c.toNat == 0x2029

/-- The other characters that separate tokens: all further blanks, the byte order mark and the space of width zero. -/
def isScriptBlank (c : Char) : Bool :=
  (isBlank c && !isLineEnd c) || c.toNat == 0x200B || c.toNat == 0xFEFF

/-- A text without the leading characters that satisfy a condition. -/
def dropStart (p : Char → Bool) (s : List Char) : List Char := s.dropWhile p

/-- A text without the trailing characters that satisfy a condition. -/
def dropEnd (p : Char → Bool) (s : List Char) : List Char := (s.reverse.dropWhile p).reverse

/-- A text without blanks at either end. -/
def trimBlank (s : List Char) : List Char := dropEnd isBlank (dropStart isBlank s)

end Prebake
