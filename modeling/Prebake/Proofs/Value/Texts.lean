import Prebake.Proofs.Except
import Prebake.Proofs.Value.Segments

/-!
# The two texts of a value

A value is turned into a plain text, which a server value does not have, or into segments, which carry its slots along. The two
agree wherever server values have slots: there is a plain text exactly if there is no slot among the segments, and it is what
the segments spell (`toText_eq`). That server values have slots, and are in normal form, is kept by every operation on values
(`Value.IsSound`): what addition makes is merged, and what a member gives was there before.
-/

namespace Prebake

/-! ## Server values inside of values -/

namespace Value

/-- A server value with these segments is the value, or stands inside of it. -/
inductive Holds : Value → List Segment → Prop
  | server (segments : List Segment) : Holds (server segments) segments
  | item {item : Value} {items : List Value} {segments : List Segment} (hitem : item ∈ items) (h : Holds item segments) :
    Holds (array items) segments
  | field {name : String} {item : Value} {fields : List (String × Value)} {segments : List Segment}
    (hfield : (name, item) ∈ fields) (h : Holds item segments) : Holds (object fields) segments

/-- All server values in a value have a property. -/
def AllServers (P : List Segment → Prop) (v : Value) : Prop := ∀ segments, v.Holds segments → P segments

namespace AllServers

variable {P : List Segment → Prop}

/-- A server value has no other one inside of it. -/
theorem server_iff {segments : List Segment} : AllServers P (server segments) ↔ P segments := by
  constructor
  · intro h
    exact h segments (.server segments)
  · rintro h _ ⟨⟩
    exact h

/-- The server values in an array are those in its items. -/
theorem array_iff {items : List Value} : AllServers P (array items) ↔ ∀ item ∈ items, AllServers P item := by
  constructor
  · intro h item hitem segments hsegments
    exact h segments (.item hitem hsegments)
  · rintro h segments (_ | ⟨hitem, hsegments⟩)
    exact h _ hitem segments hsegments

/-- The server values in an object are those in its fields. -/
theorem object_iff {fields : List (String × Value)} :
    AllServers P (object fields) ↔ ∀ field ∈ fields, AllServers P field.2 := by
  constructor
  · intro h field hfield segments hsegments
    exact h segments (.field hfield hsegments)
  · rintro h segments (_ | _ | ⟨hfield, hsegments⟩)
    exact h _ hfield segments hsegments

end AllServers

end Value

/-! ## Plain texts -/

namespace Segment

/-- The text of segments, if there is no slot among them. -/
def toText (segments : List Segment) : Except Obstacle String :=
  if segments.any isSlot then .error (.inspected .stringOperation) else .ok (literal segments)

@[simp] theorem toText_text (s : String) : toText [.text s] = .ok s := by
  simp [toText, isSlot, literal]

theorem literal_append (segments others : List Segment) : literal (segments ++ others) = literal segments ++ literal others := by
  induction segments with
  | nil => simp [literal]
  | cons segment segments ih => cases segment <;> simp [literal, ih, String.append_assoc]

/-- The text of segments is that of one part followed by that of the other. -/
theorem toText_append (segments others : List Segment) :
    toText (segments ++ others) = do return (← toText segments) ++ (← toText others) := by
  unfold toText
  rw [List.any_append, literal_append]
  cases segments.any isSlot <;> cases others.any isSlot <;> rfl

/-- Segments have a plain text if none of them is a slot. -/
theorem toText_eq_ok_iff {segments : List Segment} {s : String} :
    toText segments = .ok s ↔ (∀ segment ∈ segments, segment.isSlot = false) ∧ s = literal segments := by
  unfold toText
  split
  · rename_i hslot
    obtain ⟨segment, hsegment, hslot⟩ := List.any_eq_true.1 hslot
    refine ⟨nofun, fun ⟨hnone, _⟩ => ?_⟩
    rw [hnone segment hsegment] at hslot
    cases hslot
  · rename_i hslot
    simp only [Except.ok.injEq]
    constructor
    · rintro rfl
      exact ⟨by simpa using hslot, rfl⟩
    · rintro ⟨-, rfl⟩
      rfl

end Segment

namespace Value

/-- Where there are items there are texts of items. -/
theorem ne_nil_of_itemTexts {item : Value} {items : List Value} {texts : List String}
    (h : itemTexts (item :: items) = .ok texts) : texts ≠ [] := by
  rw [itemTexts] at h
  split at h
  · obtain ⟨text, -, h⟩ := bind_eq_ok_iff.1 h
    obtain ⟨others, -, h⟩ := bind_eq_ok_iff.1 h
    cases h
    exact List.cons_ne_nil text others
  · obtain ⟨text, -, h⟩ := bind_eq_ok_iff.1 h
    obtain ⟨others, -, h⟩ := bind_eq_ok_iff.1 h
    cases h
    exact List.cons_ne_nil text others

/-- The text of the first item stands before a comma and the texts of the other items, if there are any. -/
theorem intercalate_cons_itemTexts {items : List Value}
    (h : (do return String.intercalate "," (← itemTexts items)) = Segment.toText (itemSegments items)) (text : String) :
    (do
      let texts ← (do return text :: (← itemTexts items))
      return String.intercalate "," texts) =
    (do
      let rest ← Segment.toText (if items.isEmpty then [] else .text "," :: itemSegments items)
      return text ++ rest) := by
  cases items with
  | nil =>
    show Except.ok (String.intercalate "," [text]) = Except.ok (text ++ "")
    rw [String.intercalate_singleton, String.append_empty]
  | cons second items =>
    have hcomma := Segment.toText_append [Segment.text ","] (itemSegments (second :: items))
    rw [Segment.toText_text, ← h] at hcomma
    show _ = (do
      let rest ← Segment.toText ([Segment.text ","] ++ itemSegments (second :: items))
      return text ++ rest)
    rw [hcomma]
    cases htexts : itemTexts (second :: items) with
    | error e => rfl
    | ok texts =>
      show Except.ok (String.intercalate "," (text :: texts)) = Except.ok (text ++ ("," ++ String.intercalate "," texts))
      rw [String.intercalate_cons_of_ne_nil (ne_nil_of_itemTexts htexts), String.append_assoc]

mutual

/-- If server values have slots, the plain text of a value is the text of its segments. -/
theorem toText_eq : ∀ v : Value, v.AllServers (fun segments => segments.any Segment.isSlot = true) →
    v.toText = Segment.toText v.toSegments
  | undefined, _ | null, _ | bool _, _ | number _, _ | string _, _ | object _, _ => (Segment.toText_text _).symm
  | server segments, h => (if_pos (AllServers.server_iff.1 h)).symm
  | array items, h => by
    rw [toText, toSegments]
    exact itemTexts_eq items (AllServers.array_iff.1 h)

/-- Items have a plain text if there is no slot among their segments. -/
theorem itemTexts_eq : ∀ items : List Value,
    (∀ item ∈ items, item.AllServers fun segments => segments.any Segment.isSlot = true) →
      (do return String.intercalate "," (← itemTexts items)) = Segment.toText (itemSegments items)
  | [], _ => rfl
  | item :: items, h => by
    obtain ⟨hitem, hitems⟩ := List.forall_mem_cons.1 h
    have hrest := intercalate_cons_itemTexts (itemTexts_eq items hitems)
    rw [itemTexts, itemSegments, Segment.toText_append, toText_eq item hitem]
    cases item.isNullish with
    | true => exact hrest ""
    | false =>
      cases htext : Segment.toText item.toSegments with
      | error e =>
        simp only [Bool.false_eq_true, if_false, htext]
        rfl
      | ok text =>
        simp only [Bool.false_eq_true, if_false, htext]
        exact hrest text

end

end Value

/-! ## What operations keep -/

/-- The segments of a server value: they are in normal form, and there is a slot among them. -/
structure Segment.IsServerText (segments : List Segment) : Prop extends IsMerged segments where
  hasSlot : ∃ segment ∈ segments, segment.isSlot = true

namespace Value

/-- All server values in a value have slots and are in normal form. -/
def IsSound (v : Value) : Prop := v.AllServers Segment.IsServerText

theorem isSound_ofSlot (name : String) : (ofSlot name).IsSound :=
  AllServers.server_iff.2 ⟨⟨by simp, .singleton _⟩, .slot name, List.mem_singleton_self _, rfl⟩

theorem isSound_string (s : String) : (string s).IsSound := nofun

/-- Text that is made of segments is merged, and it is a server value only if there is a slot. -/
theorem isSound_ofSegments (segments : List Segment) : (ofSegments segments).IsSound := by
  unfold ofSegments
  dsimp only
  split
  · rename_i hslot
    exact AllServers.server_iff.2 ⟨Segment.isMerged_merge segments, List.any_eq_true.1 hslot⟩
  · exact isSound_string _

mutual

/-- What is given as data is sound. -/
theorem isSound_ofJson : ∀ json : Json, (ofJson json).IsSound
  | .null | .bool _ | .whole _ | .decimal _ | .string _ => nofun
  | .array items => AllServers.array_iff.2 (isSound_ofJsonItems items)
  | .object fields => AllServers.object_iff.2 (isSound_ofJsonFields fields)

theorem isSound_ofJsonItems : ∀ items : List Json, ∀ item ∈ ofJsonItems items, item.IsSound
  | [] => List.forall_mem_nil _
  | item :: items => List.forall_mem_cons.2 ⟨isSound_ofJson item, isSound_ofJsonItems items⟩

theorem isSound_ofJsonFields : ∀ fields : List (String × Json), ∀ field ∈ ofJsonFields fields, field.2.IsSound
  | [] => List.forall_mem_nil _
  | (_, item) :: fields => List.forall_mem_cons.2 ⟨isSound_ofJson item, isSound_ofJsonFields fields⟩

end

/-- A sum of texts is sound whatever its sides are, since it is merged. -/
theorem yields_add (a b : Value) : Yields IsSound (a.add b) := by
  unfold add
  split
  · exact .ok (isSound_ofSegments _)
  · exact .after fun _ => .after fun _ => .ok nofun

/-- A property of a value stands in it, or is no more than a text or a number. -/
theorem yields_property {v : Value} (h : v.IsSound) (key : String) : Yields IsSound (v.property key) := by
  cases v with
  | server segments => exact .error _
  | undefined | null => exact .error _
  | bool _ | number _ => exact .ok nofun
  | object fields =>
    refine .ok ?_
    cases hfield : fields.lookup key with
    | none => exact nofun
    | some item =>
      obtain ⟨before, after, rfl, -⟩ := List.lookup_eq_some_iff.1 hfield
      exact AllServers.object_iff.1 h (key, item) (List.mem_append_right before List.mem_cons_self)
  | array items =>
    refine .ok ?_
    split
    · exact nofun
    · cases hitem : (position? key).bind fun i => items[i]? with
      | none => exact nofun
      | some item =>
        obtain ⟨i, -, hi⟩ := Option.bind_eq_some_iff.1 hitem
        exact AllServers.array_iff.1 h item (List.mem_of_getElem? hi)
  | string s =>
    refine .ok ?_
    split
    · exact nofun
    · cases (position? key).bind fun i => Units.at? s i with
      | none => exact nofun
      | some unit => exact isSound_string unit

/-- What a sound value has under a key is sound. -/
theorem yields_member {v : Value} (h : v.IsSound) (key : Value) : Yields IsSound (v.member key) :=
  .after fun name => yields_property h name

/-- What holds of a field and of all others holds of all fields after it is set. -/
theorem forall_mem_setField {P : Value → Prop} {name : String} {v : Value} {fields : List (String × Value)} (hv : P v)
    (h : ∀ field ∈ fields, P field.2) : ∀ field ∈ setField name v fields, P field.2 := by
  induction fields with
  | nil =>
    rw [setField]
    exact List.forall_mem_singleton.2 hv
  | cons field fields ih =>
    obtain ⟨hfield, hfields⟩ := List.forall_mem_cons.1 h
    rw [setField]
    split
    · exact List.forall_mem_cons.2 ⟨hv, hfields⟩
    · exact List.forall_mem_cons.2 ⟨hfield, ih hfields⟩

end Value

end Prebake
