import Prebake.Proofs.Except
import Prebake.Value.Operations

/-!
# Comparing arrays and objects

A comparison with coercion turns an array or object into its text first, and two texts are then compared as texts. Here they
are not: an array or object counts as the number that its text denotes, also where the other side is a text. Against any
other value that is the same, since a text then counts as a number too. `comparisons_coerced_iff` says for which arrays and
objects the two ways of comparing differ, and `equalTexts_differ` that they do.
-/

namespace Prebake

namespace Value

mutual

/-- No server value stands anywhere in a value. -/
def Slotless : Value → Prop
  | server _ => False
  | array items => ItemsSlotless items
  | object fields => FieldsSlotless fields
  | _ => True

/-- No item holds a server value. -/
def ItemsSlotless : List Value → Prop
  | [] => True
  | item :: items => Slotless item ∧ ItemsSlotless items

/-- No field holds a server value. -/
def FieldsSlotless : List (String × Value) → Prop
  | [] => True
  | (_, item) :: fields => Slotless item ∧ FieldsSlotless fields

end

variable {a b : Value} {s t : String}

mutual

/-- Only a server value has no text. -/
theorem exists_toText : ∀ v : Value, v.Slotless → ∃ text, v.toText = .ok text
  | undefined, _ | null, _ | bool _, _ | number _, _ | string _, _ | object _, _ => ⟨_, rfl⟩
  | array items, h => by
    obtain ⟨texts, htexts⟩ := exists_itemTexts items h
    exact ⟨String.intercalate "," texts, bind_eq_ok_iff.2 ⟨texts, htexts, rfl⟩⟩

/-- Items without server values have texts. -/
theorem exists_itemTexts : ∀ items : List Value, ItemsSlotless items → ∃ texts, itemTexts items = .ok texts
  | [], _ => ⟨[], rfl⟩
  | item :: items, ⟨hitem, hitems⟩ => by
    obtain ⟨text, htext⟩ := exists_toText item hitem
    obtain ⟨texts, htexts⟩ := exists_itemTexts items hitems
    have hrest : ∀ text : String, (do return text :: (← itemTexts items) : Except Obstacle (List String)) =
        .ok (text :: texts) := fun _ => bind_eq_ok_iff.2 ⟨texts, htexts, rfl⟩
    rw [itemTexts]
    cases item.isNullish with
    | true => exact ⟨"" :: texts, hrest ""⟩
    | false => exact ⟨text :: texts, bind_eq_ok_iff.2 ⟨text, htext, hrest text⟩⟩

end

theorem Slotless.isServer (h : a.Slotless) : a.isServer = false := by
  cases a with
  | server segments => exact h.elim
  | _ => rfl

/-! ## Coercion to a primitive value -/

/-- What a value is coerced to before it is compared: the text of an array or object, and any other value itself. -/
def toPrimitive (v : Value) : Except Obstacle Value :=
  if v.isCompound then string <$> v.toText else .ok v

/-- A comparison of what two values are coerced to. -/
def coerced {α : Type} (compared : Value → Value → Except Obstacle α) (a b : Value) : Except Obstacle α := do
  compared (← a.toPrimitive) (← b.toPrimitive)

/-- An array or object becomes its text. -/
theorem toPrimitive_of_isCompound (ha : a.isCompound = true) (hs : a.toText = .ok s) :
    a.toPrimitive = .ok (string s) := by
  rw [toPrimitive, if_pos ha, hs]
  rfl

/-- A value that is neither an array nor an object stays what it is. -/
theorem toPrimitive_of_not_isCompound (ha : a.isCompound = false) : a.toPrimitive = .ok a := by
  rw [toPrimitive, if_neg (by simp [ha])]

/-- A coerced comparison compares what the two sides become. -/
theorem coerced_eq {α : Type} {compared : Value → Value → Except Obstacle α} {p q : Value} (hp : a.toPrimitive = .ok p)
    (hq : b.toPrimitive = .ok q) : coerced compared a b = compared p q := by
  rw [coerced, hp, hq]
  rfl

/-- A value that joins texts is coerced to its text. -/
theorem toPrimitive_of_joins (ha : a.joins = true) (hs : a.toText = .ok s) : a.toPrimitive = .ok (string s) := by
  cases a with
  | undefined | null | bool _ | number _ => cases ha
  | server segments => cases hs
  | string text =>
    cases hs
    rfl
  | array _ | object _ => exact toPrimitive_of_isCompound rfl hs

/-- A value that joins no texts is coerced to itself. -/
theorem toPrimitive_of_not_joins (ha : a.joins = false) : a.toPrimitive = .ok a := by
  cases a with
  | undefined | null | bool _ | number _ => rfl
  | string _ | server _ | array _ | object _ => cases ha

/-- A value that joins texts counts as the number that its text denotes. -/
theorem toNumber_of_joins (ha : a.joins = true) (hs : a.toText = .ok s) : a.toNumber = .ok (readNumber s) := by
  cases a with
  | undefined | null | bool _ | number _ => cases ha
  | server segments => cases hs
  | string text =>
    cases hs
    rfl
  | array items =>
    rw [toNumber, hs]
    · rfl
    all_goals exact nofun
  | object fields =>
    cases hs
    rfl

theorem joins_of_isCompound (ha : a.isCompound = true) : a.joins = true := by
  cases a with
  | array _ | object _ => rfl
  | _ => cases ha

/-- A value with a text can be coerced, which changes neither its number nor whether it stands for nothing or joins texts. -/
theorem exists_toPrimitive (hs : a.toText = .ok s) : ∃ p, a.toPrimitive = .ok p ∧ p.toNumber = a.toNumber ∧
    p.isNullish = a.isNullish ∧ p.joins = a.joins ∧ p.isServer = false := by
  cases hjoins : a.joins with
  | true =>
    refine ⟨string s, toPrimitive_of_joins hjoins hs, (toNumber_of_joins hjoins hs).symm, ?_, rfl, rfl⟩
    cases a with
    | undefined | null => cases hjoins
    | _ => rfl
  | false =>
    refine ⟨a, toPrimitive_of_not_joins hjoins, rfl, rfl, hjoins, ?_⟩
    cases a with
    | server _ => cases hjoins
    | _ => rfl

/-! ## What is compared as numbers -/

/-- Unless both values are strings, they are ordered as numbers. -/
theorem order_eq_of_ne (ha : a.isServer = false) (hb : b.isServer = false)
    (h : ∀ x y, a = string x → b = string y → False) :
    a.order b = do return orderNumbers (← a.toNumber) (← b.toNumber) := by
  unfold order
  rw [ha, hb, Bool.or_self, if_neg Bool.false_ne_true]
  split
  · rename_i x y
    exact (h x y rfl rfl).elim
  · rfl

/-- Unless both values join texts, they are equal as numbers, but what stands for nothing equals only its like. -/
theorem looseEq_eq_of_not_joins (ha : a.isServer = false) (hb : b.isServer = false)
    (h : ¬(a.joins = true ∧ b.joins = true)) :
    a.looseEq b = if a.isNullish || b.isNullish then .ok (a.isNullish && b.isNullish)
      else do return (← a.toNumber) == (← b.toNumber) := by
  unfold looseEq
  rw [ha, hb, Bool.or_self, if_neg Bool.false_ne_true]
  split
  · rfl
  · split
    · exact absurd ⟨rfl, rfl⟩ h
    · rw [if_neg]
      rw [Bool.and_eq_true]
      exact fun hboth => h ⟨joins_of_isCompound hboth.1, joins_of_isCompound hboth.2⟩

/-- Where one of two values is an array or object and both join texts, they are equal if their texts denote equal numbers. -/
theorem looseEq_of_joins (ha : a.joins = true) (hb : b.joins = true) (hs : a.toText = .ok s) (ht : b.toText = .ok t)
    (hone : a.isCompound ≠ b.isCompound) : a.looseEq b = .ok (readNumber s == readNumber t) := by
  have hnumbers : (do return (← a.toNumber) == (← b.toNumber) : Except Obstacle Bool) =
      .ok (readNumber s == readNumber t) := by
    rw [toNumber_of_joins ha hs, toNumber_of_joins hb ht]
    rfl
  rw [← hnumbers]
  cases a with
  | undefined | null | bool _ | number _ => cases ha
  | server _ => cases hs
  | string _ =>
    cases b with
    | undefined | null | bool _ | number _ => cases hb
    | server _ => cases ht
    | string _ => exact absurd rfl hone
    | array _ | object _ => rfl
  | array _ | object _ =>
    cases b with
    | undefined | null | bool _ | number _ => cases hb
    | server _ => cases ht
    | string _ => rfl
    | array _ | object _ => exact absurd rfl hone

/-- Where one of two values is an array or object and both join texts, they are ordered as the numbers of their texts. -/
theorem order_of_joins (ha : a.joins = true) (hb : b.joins = true) (hs : a.toText = .ok s) (ht : b.toText = .ok t)
    (hsome : a.isCompound = true ∨ b.isCompound = true) :
    a.order b = .ok (orderNumbers (readNumber s) (readNumber t)) := by
  have hserver : ∀ {v : Value} {text : String}, v.toText = .ok text → v.isServer = false := by
    intro v text hv
    cases v with
    | server _ => cases hv
    | _ => rfl
  rw [order_eq_of_ne (hserver hs) (hserver ht), toNumber_of_joins ha hs, toNumber_of_joins hb ht]
  · rfl
  · rintro x y rfl rfl
    rcases hsome with h | h <;> cases h

/-! ## The two ways of comparing -/

/-- Comparing an array or object with another value, or ordering any two values, is the same as comparing what they are
coerced to, except between two values that join texts, one of them an array or object: these are compared as the numbers of
their texts, which is the same exactly if the texts compare like the numbers. -/
theorem comparisons_coerced_iff (ha : a.Slotless) (hb : b.Slotless) : ∃ s t, a.toText = .ok s ∧ b.toText = .ok t ∧
    (a.isCompound ≠ b.isCompound → (a.looseEq b = coerced looseEq a b ↔
      (a.joins = true ∧ b.joins = true → (readNumber s == readNumber t) = (s == t)))) ∧
    (a.order b = coerced order a b ↔ (a.joins = true ∧ b.joins = true ∧ (a.isCompound = true ∨ b.isCompound = true) →
      orderNumbers (readNumber s) (readNumber t) = some (compare s t))) := by
  obtain ⟨s, hs⟩ := exists_toText a ha
  obtain ⟨t, ht⟩ := exists_toText b hb
  refine ⟨s, t, hs, ht, ?_⟩
  by_cases hjoins : a.joins = true ∧ b.joins = true
  · -- both are coerced to their texts
    obtain ⟨hja, hjb⟩ := hjoins
    have hp := toPrimitive_of_joins hja hs
    have hq := toPrimitive_of_joins hjb ht
    rw [coerced_eq hp hq, coerced_eq hp hq]
    constructor
    · intro hone
      rw [looseEq_of_joins hja hjb hs ht hone]
      exact ⟨fun h _ => Except.ok.inj h, fun h => congrArg Except.ok (h ⟨hja, hjb⟩)⟩
    · by_cases hsome : a.isCompound = true ∨ b.isCompound = true
      · rw [order_of_joins hja hjb hs ht hsome]
        exact ⟨fun h _ => Except.ok.inj h, fun h => congrArg Except.ok (h ⟨hja, hjb, hsome⟩)⟩
      · rw [not_or, Bool.not_eq_true, Bool.not_eq_true] at hsome
        obtain rfl := Except.ok.inj (hp.symm.trans (toPrimitive_of_not_isCompound hsome.1))
        obtain rfl := Except.ok.inj (hq.symm.trans (toPrimitive_of_not_isCompound hsome.2))
        exact iff_of_true rfl fun ⟨_, _, hnone⟩ => (by simp [isCompound] at hnone)
  · -- one of them counts as a number in any case
    obtain ⟨p, hp, hpn, hpnull, hpj, hps⟩ := exists_toPrimitive hs
    obtain ⟨q, hq, hqn, hqnull, hqj, hqs⟩ := exists_toPrimitive ht
    have hjoins' : ¬(p.joins = true ∧ q.joins = true) := by rwa [hpj, hqj]
    have hstrings : ∀ {v w : Value}, ¬(v.joins = true ∧ w.joins = true) →
        ∀ x y, v = string x → w = string y → False := by
      rintro v w h x y rfl rfl
      exact h ⟨rfl, rfl⟩
    rw [coerced_eq hp hq, coerced_eq hp hq]
    constructor
    · intro _
      rw [looseEq_eq_of_not_joins ha.isServer hb.isServer hjoins, looseEq_eq_of_not_joins hps hqs hjoins', hpn, hqn, hpnull,
        hqnull]
      exact iff_of_true rfl fun h => absurd h hjoins
    · rw [order_eq_of_ne ha.isServer hb.isServer (hstrings hjoins), order_eq_of_ne hps hqs (hstrings hjoins'), hpn, hqn]
      exact iff_of_true rfl fun h => absurd ⟨h.1, h.2.1⟩ hjoins

/-- An array with the text `1` equals this text, and its place in the order is that of the text. -/
theorem equalTexts_agree : (array [string "1"]).Slotless ∧ (string "1").Slotless ∧
    (array [string "1"]).looseEq (string "1") = coerced looseEq (array [string "1"]) (string "1") ∧
    (array [string "1"]).order (string "1") = coerced order (array [string "1"]) (string "1") := by
  have hslotless : (array [string "1"]).Slotless ∧ (string "1").Slotless := ⟨⟨trivial, trivial⟩, trivial⟩
  obtain ⟨s, t, hs, ht, hloose, horder⟩ := comparisons_coerced_iff hslotless.1 hslotless.2
  cases hs
  cases ht
  exact ⟨hslotless.1, hslotless.2, (hloose (by decide)).2 fun _ => rfl, horder.2 fun _ => rfl⟩

/-- An array with the text `a` neither equals this text nor has a place in the order with it: neither is a number. -/
theorem equalTexts_differ : (array [string "a"]).Slotless ∧ (string "a").Slotless ∧
    (array [string "a"]).looseEq (string "a") = .ok false ∧
    coerced looseEq (array [string "a"]) (string "a") = .ok true ∧
    (array [string "a"]).order (string "a") = .ok none ∧
    coerced order (array [string "a"]) (string "a") = .ok (some .eq) :=
  ⟨⟨trivial, trivial⟩, trivial, rfl, rfl, rfl, rfl⟩

end Value

end Prebake
