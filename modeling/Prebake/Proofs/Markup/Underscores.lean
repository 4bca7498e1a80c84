import Prebake.Proofs.Except
import Prebake.Proofs.Markup.Written

/-!
# Values without underscores

A marker opens with an underscore. If no string and no key of a value holds one, no text that is written for the value does:
numbers, conditions and whatever is put between items and declarations bring none along. So nothing has to be neutralized
in such text (`not_overlapping_of_underscoreless`).
-/

namespace Prebake

open Marker Markup

/-! ## Numbers -/

namespace Decimal

/-- The significant digits are digits, and an underscore is none. -/
theorem underscore_not_mem_significant (d : Decimal) : '_' ∉ d.significant := by
  intro h
  rw [significant, List.mem_reverse] at h
  exact Nat.underscore_not_in_toDigits (List.mem_reverse.1 ((List.dropWhile_sublist _).mem h))

/-- A number that is written in full consists of digits and perhaps a point. -/
theorem underscore_not_mem_positional (d : Decimal) : '_' ∉ d.positional := by
  have hdigits := d.underscore_not_mem_significant
  have hzeros : ∀ n, '_' ∉ List.replicate n '0' := fun n h => absurd (List.eq_of_mem_replicate h) (by decide)
  have hwhole : ∀ n, '_' ∉ d.significant.take n := fun n h => hdigits (List.mem_of_mem_take h)
  have hfraction : ∀ n, '_' ∉ d.significant.drop n := fun n h => hdigits (List.mem_of_mem_drop h)
  unfold positional
  dsimp only
  split
  · simp [hdigits, hzeros]
  · split
    · simp [hdigits, hzeros]
    · simp [hwhole, hfraction]

/-- A number with an exponent has a letter and a sign in addition. -/
theorem underscore_not_mem_scientific (d : Decimal) : '_' ∉ d.scientific := by
  have hdigits := d.underscore_not_mem_significant
  have hpower : ∀ n, '_' ∉ Nat.toDigits 10 n := fun _ => Nat.underscore_not_in_toDigits
  have hsign : ∀ power : Int, '_' ∉ ['e', if power < 0 then '-' else '+'] := by
    intro power
    split <;> decide
  unfold scientific
  dsimp only
  rw [List.mem_append, List.mem_append, not_or, not_or]
  refine ⟨⟨?_, hsign _⟩, hpower _⟩
  split
  · rename_i heq
    rw [heq] at hdigits
    simpa using hdigits
  · exact hdigits

end Decimal

/-- Numbers are written without underscores, and so are infinities and what is no number. -/
theorem underscore_not_mem_writeNumber (x : Float) : '_' ∉ (writeNumber x).toList := by
  have hsign : '_' ∉ (if x < 0.0 then "-" else "").toList := by
    split <;> decide
  unfold writeNumber
  dsimp only
  split
  · decide
  split
  · decide
  split
  · rw [String.toList_append, List.mem_append, not_or]
    exact ⟨hsign, by decide⟩
  · rw [String.toList_append, List.mem_append, not_or, String.toList_ofList]
    refine ⟨hsign, ?_⟩
    split
    · exact Decimal.underscore_not_mem_scientific _
    · exact Decimal.underscore_not_mem_positional _

/-! ## Values -/

/-- No text in a segment holds an underscore. -/
def Segment.Underscoreless : Segment → Prop
  | .text content => '_' ∉ content.toList
  | .slot _ => True

namespace Value

mutual

/-- No string in a value holds an underscore, and no key does. -/
def Underscoreless : Value → Prop
  | string s => '_' ∉ s.toList
  | server segments => ∀ segment ∈ segments, segment.Underscoreless
  | array items => ItemsUnderscoreless items
  | object fields => FieldsUnderscoreless fields
  | _ => True

/-- No item holds an underscore. -/
def ItemsUnderscoreless : List Value → Prop
  | [] => True
  | item :: items => Underscoreless item ∧ ItemsUnderscoreless items

/-- No field holds an underscore, neither in its name nor in its value. -/
def FieldsUnderscoreless : List (String × Value) → Prop
  | [] => True
  | (name, item) :: fields => '_' ∉ name.toList ∧ Underscoreless item ∧ FieldsUnderscoreless fields

end

/-- The text of a single value has an underscore only where the value is a text that has one. -/
theorem underscore_not_mem_scalarText : ∀ {v : Value}, v.Underscoreless → '_' ∉ v.scalarText.toList
  | undefined, _ | null, _ | bool true, _ | bool false, _ => by decide
  | number x, _ => underscore_not_mem_writeNumber x
  | string _, h => h
  | object _, _ => (by decide : '_' ∉ "[object Object]".toList)
  | server _, _ | array _, _ => (by decide : '_' ∉ "".toList)

/-- What stands between the joined items of an array. -/
theorem underscoreless_comma : (Segment.text ",").Underscoreless := (by decide : '_' ∉ ",".toList)

mutual

/-- The text of a value brings no underscores that are not in the value. -/
theorem underscoreless_toSegments : ∀ v : Value, v.Underscoreless → ∀ segment ∈ v.toSegments, segment.Underscoreless
  | server _, h => h
  | array items, h => underscoreless_itemSegments items h
  | undefined, h | null, h | bool _, h | number _, h | string _, h | object _, h =>
    List.forall_mem_singleton.2 (underscore_not_mem_scalarText h)

/-- The joined text of items brings no underscores that are not in the items. -/
theorem underscoreless_itemSegments : ∀ items : List Value, ItemsUnderscoreless items →
    ∀ segment ∈ itemSegments items, segment.Underscoreless
  | [], _ => List.forall_mem_nil _
  | item :: items, ⟨hitem, hitems⟩ => by
    rw [itemSegments, List.forall_mem_append]
    constructor
    · split
      · exact List.forall_mem_nil _
      · exact underscoreless_toSegments item hitem
    · split
      · exact List.forall_mem_nil _
      · exact List.forall_mem_cons.2 ⟨underscoreless_comma, underscoreless_itemSegments items hitems⟩

end

mutual

/-- As content a value is written without underscores, up to where an obstacle is met. -/
theorem underscoreless_content : ∀ v : Value, v.Underscoreless → ∀ segment ∈ v.content.segments, segment.Underscoreless
  | undefined, _ | null, _ | bool _, _ | object _, _ => List.forall_mem_nil _
  | array items, h => underscoreless_itemContents items h
  | number x, h => underscoreless_toSegments (number x) h
  | string s, h => underscoreless_toSegments (string s) h
  | server segments, h => underscoreless_toSegments (server segments) h

/-- Items follow each other as content with nothing in between. -/
theorem underscoreless_itemContents : ∀ items : List Value, ItemsUnderscoreless items →
    ∀ segment ∈ (itemContents items).segments, segment.Underscoreless
  | [], _ => List.forall_mem_nil _
  | item :: items, ⟨hitem, hitems⟩ => by
    rw [itemContents]
    dsimp only
    split
    · exact underscoreless_content item hitem
    · exact List.forall_mem_append.2 ⟨underscoreless_content item hitem, underscoreless_itemContents items hitems⟩

end

end Value

/-! ## Styles -/

namespace Style

/-- No letter becomes an underscore in lower case. -/
theorem underscore_ne_toLower {c : Char} (hupper : c.isUpper = true) : '_' ≠ c.toLower := by
  intro heq
  obtain ⟨hlow, hhigh⟩ : 'A'.val ≤ c.val ∧ c.val ≤ 'Z'.val := of_decide_eq_true hupper
  have hlower : c.toLower.val = c.val + ('a'.val - 'A'.val) := congrArg Char.val (dif_pos ⟨hlow, hhigh⟩)
  have hval : 95 = (c.val.toNat + 32) % 4294967296 := by
    rw [← heq] at hlower
    exact congrArg UInt32.toNat hlower
  rw [UInt32.le_iff_toNat_le] at hlow hhigh
  have hrange : 65 ≤ c.val.toNat ∧ c.val.toNat ≤ 90 := ⟨hlow, hhigh⟩
  omega

/-- A character of the name of a property is written as itself, or as a hyphen with the small letter. -/
theorem underscore_not_mem_nameChar {c : Char} (h : c ≠ '_') : '_' ∉ nameChar c := by
  unfold nameChar
  split
  · rename_i hupper
    simp [underscore_ne_toLower hupper]
  · simpa using h.symm

/-- The names of properties bring underscores only with them. -/
theorem underscore_not_mem_propertyName {property : String} (h : '_' ∉ property.toList) :
    '_' ∉ (propertyName property).toList := by
  unfold propertyName
  dsimp only
  split
  · exact h
  · rw [String.toList_ofList, List.mem_append, not_or]
    refine ⟨by split <;> decide, fun hin => ?_⟩
    obtain ⟨c, hc, hin⟩ := List.mem_flatMap.1 hin
    exact underscore_not_mem_nameChar (fun heq => h (heq ▸ hc)) hin

/-- The value of a declaration is the text of a value, perhaps with a unit. -/
theorem underscoreless_entryValue {property : String} {value : Value} {segments : List Segment} (hvalue : value.Underscoreless)
    (h : entryValue property value = .ok (some segments)) : ∀ segment ∈ segments, segment.Underscoreless := by
  cases value with
  | undefined | null | bool _ | array _ | object _ => cases h
  | server found =>
    cases h
    exact hvalue
  | string s =>
    simp only [entryValue, Except.ok.injEq] at h
    split at h
    · cases h
    · cases h
      exact List.forall_mem_singleton.2 hvalue
  | number x =>
    cases h
    refine List.forall_mem_singleton.2 (show '_' ∉ _ from ?_)
    rw [String.toList_append, List.mem_append, not_or]
    exact ⟨underscore_not_mem_writeNumber x, by split <;> decide⟩

/-- Declarations hold underscores only if a field does. -/
theorem underscoreless_declarations : ∀ {fields : List (String × Value)} {found : List (List Segment)},
    Value.FieldsUnderscoreless fields → declarations fields = .ok found →
      ∀ segments ∈ found, ∀ segment ∈ segments, segment.Underscoreless := by
  intro fields found hfields h
  induction fields generalizing found with
  | nil =>
    cases h
    exact List.forall_mem_nil _
  | cons field fields ih =>
    obtain ⟨property, value⟩ := field
    obtain ⟨hname, hvalue, hfields⟩ := hfields
    obtain ⟨entry, hentry, h⟩ := bind_eq_ok_iff.1 h
    obtain ⟨segments?, hsegments, hdeclared⟩ := bind_eq_ok_iff.1 hentry
    cases hdeclared
    cases segments? with
    | none => exact ih hfields h
    | some segments =>
      obtain ⟨others, hothers, hfound⟩ := bind_eq_ok_iff.1 h
      cases hfound
      refine List.forall_mem_cons.2 ⟨List.forall_mem_cons.2 ⟨?_, underscoreless_entryValue hvalue hsegments⟩, ih hfields hothers⟩
      show '_' ∉ (propertyName property ++ ":").toList
      rw [String.toList_append, List.mem_append, not_or]
      exact ⟨underscore_not_mem_propertyName hname, by decide⟩

/-- What is put between lists of segments is all that is added to them. -/
theorem underscoreless_intercalate {separator : List Segment} {items : List (List Segment)}
    (hseparator : ∀ segment ∈ separator, segment.Underscoreless)
    (hitems : ∀ segments ∈ items, ∀ segment ∈ segments, segment.Underscoreless) :
    ∀ segment ∈ separator.intercalate items, segment.Underscoreless := by
  induction items with
  | nil => exact List.forall_mem_nil _
  | cons first items ih =>
    obtain ⟨hfirst, hitems⟩ := List.forall_mem_cons.1 hitems
    cases items with
    | nil => simpa [List.intercalate] using hfirst
    | cons second items =>
      rw [List.intercalate_cons_cons, List.forall_mem_append, List.forall_mem_append]
      exact ⟨⟨hfirst, hseparator⟩, ih hitems⟩

/-- A style holds underscores only if a field does. -/
theorem underscoreless_segments {fields : List (String × Value)} {found : List Segment}
    (hfields : Value.FieldsUnderscoreless fields) (h : segments fields = .ok found) :
    ∀ segment ∈ found, segment.Underscoreless := by
  obtain ⟨items, hitems, hfound⟩ := bind_eq_ok_iff.1 h
  cases hfound
  refine underscoreless_intercalate (List.forall_mem_singleton.2 ?_) (underscoreless_declarations hfields hitems)
  exact (by decide : '_' ∉ ";".toList)

end Style

/-! ## Runs of literal text -/

/-- Merging puts no underscore into a text. -/
theorem Part.underscore_not_mem_merge {parts : List Part} (h : ∀ text, literal text ∈ parts → '_' ∉ text.toList) :
    ∀ text, literal text ∈ merge parts → '_' ∉ text.toList := by
  induction parts with
  | nil => exact h
  | cons part parts ih =>
    have hrest := ih fun text htext => h text (List.mem_cons_of_mem _ htext)
    intro text htext
    change literal text ∈ consMerged part (merge parts) at htext
    rcases consMerged_cases part (merge parts) with ⟨s, t, rest, rfl, hmerged, heq⟩ | ⟨rfl, heq⟩ | ⟨heq, -⟩
    · rw [hmerged] at hrest
      rw [heq, List.mem_cons] at htext
      rcases htext with htext | htext
      · cases htext
        rw [String.toList_append, List.mem_append, not_or]
        exact ⟨h s List.mem_cons_self, hrest t List.mem_cons_self⟩
      · exact hrest text (List.mem_cons_of_mem _ htext)
    · exact hrest text (heq ▸ htext)
    · rw [heq, List.mem_cons] at htext
      rcases htext with rfl | htext
      · exact h text List.mem_cons_self
      · exact hrest text htext

/-- Where no text holds an underscore, no longest run of texts holds an opening, let alone two. -/
theorem not_overlapping_of_underscoreless {segments : List Segment} (h : ∀ segment ∈ segments, segment.Underscoreless) :
    ∀ run ∈ literalRuns segments, ¬overlappingOpenings <:+: run.toList := by
  intro run hrun hin
  obtain ⟨part, hpart, hliteral⟩ := List.mem_filterMap.1 hrun
  cases part with
  | slot name => cases hliteral
  | markup html => cases hliteral
  | literal text =>
    cases hliteral
    refine Part.underscore_not_mem_merge ?_ run hpart (hin.subset (show '_' ∈ overlappingOpenings by decide))
    intro other hother
    obtain ⟨segment, hsegment, heq⟩ := List.mem_map.1 hother
    cases segment with
    | slot name => cases heq
    | text content =>
      cases heq
      exact h _ hsegment

namespace Value

/-- Overlapping openings need underscores, so there are none in the attribute of a value without them. -/
theorem not_overlapping_of_toAttribute {v : Value} {property : String} {attr : Attribute} (h : v.Underscoreless)
    (hattr : v.toAttribute property = .ok attr) : ∀ run ∈ attr.literalRuns, ¬overlappingOpenings <:+: run.toList := by
  have hsegments := not_overlapping_of_underscoreless (underscoreless_toSegments v h)
  cases v with
  | undefined | null =>
    cases hattr
    exact List.forall_mem_nil _
  | bool b =>
    cases b with
    | false =>
      cases hattr
      exact List.forall_mem_nil _
    | true =>
      simp only [toAttribute, Except.ok.injEq] at hattr
      subst hattr
      split
      · exact not_overlapping_of_underscoreless (List.forall_mem_singleton.2 (by decide : '_' ∉ "true".toList))
      · exact List.forall_mem_nil _
  | object fields =>
    simp only [toAttribute] at hattr
    split at hattr
    · obtain ⟨found, hfound, hattr⟩ := bind_eq_ok_iff.1 hattr
      cases hattr
      split
      · exact List.forall_mem_nil _
      · exact not_overlapping_of_underscoreless (Style.underscoreless_segments h hfound)
    · cases hattr
  | number _ | string _ | server _ | array _ =>
    cases hattr
    exact hsegments

end Value

end Prebake
