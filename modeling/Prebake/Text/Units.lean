/-!
# Sixteen-bit units of a text

Lengths and positions of texts count UTF-16 units: a character outside the basic plane takes two, a leading and a
trailing surrogate. A surrogate is no text by itself; the replacement character stands for it.
-/

namespace Prebake.Units

/-- The units of a character. -/
def ofChar (c : Char) : List UInt16 :=
  let n := c.toNat
  if n < 0x10000 then [UInt16.ofNat n]
  else [UInt16.ofNat (0xD800 + (n - 0x10000) / 0x400), UInt16.ofNat (0xDC00 + (n - 0x10000) % 0x400)]

/-- The units of a text. -/
def ofText (s : String) : List UInt16 := s.toList.flatMap ofChar

/-- The number of units of a text. -/
def count (s : String) : Nat := (ofText s).length

/-- Half of a character outside the basic plane. -/
def isSurrogate (u : UInt16) : Bool := 0xD800 ≤ u && u ≤ 0xDFFF

/-- A unit read as a text of its own. -/
def toText (u : UInt16) : String :=
  if isSurrogate u then "\uFFFD" else String.singleton (Char.ofNat u.toNat)

/-- The unit at a position, as a text. -/
def at? (s : String) (i : Nat) : Option String := (ofText s)[i]?.map toText

end Prebake.Units
