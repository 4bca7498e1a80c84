/-!
# Steps that may fail

A computation in several steps succeeds only if each of its steps does, and it fails where the first of them fails.
`Refines` compares two computations step by step: wherever the first succeeds, so does the second, with a result that
corresponds to that of the first. `Agrees` asks for more: wherever the first fails, so does the second, with the same error.
`Raises` tells of one computation what its errors are like, and `Yields` what its results are like.
-/

namespace Prebake

variable {ε δ α β : Type} {x : Except ε α} {f : α → Except ε β}

/-- Two steps succeed if the first one does and then the second. -/
theorem bind_eq_ok_iff {b : β} : x >>= f = .ok b ↔ ∃ a, x = .ok a ∧ f a = .ok b := by
  cases x with
  | error e =>
    constructor
    · intro h
      cases h
    · rintro ⟨_, h, _⟩
      cases h
  | ok a =>
    constructor
    · intro h
      exact ⟨a, rfl, h⟩
    · rintro ⟨_, h, hf⟩
      cases h
      exact hf

/-- Two steps fail with the error of the first, or of the second where the first succeeds. -/
theorem bind_eq_error_iff {e : ε} : x >>= f = .error e ↔ x = .error e ∨ ∃ a, x = .ok a ∧ f a = .error e := by
  cases x with
  | error first =>
    constructor
    · intro h
      cases h
      exact Or.inl rfl
    · rintro (h | ⟨_, h, _⟩)
      · cases h
        rfl
      · cases h
  | ok a =>
    constructor
    · intro h
      exact Or.inr ⟨a, rfl, h⟩
    · rintro (h | ⟨_, h, hf⟩)
      · cases h
      · cases h
        exact hf

/-- Results do not depend on how errors are told. -/
theorem mapError_eq_ok_iff {g : ε → δ} {a : α} : x.mapError g = .ok a ↔ x = .ok a := by
  cases x with
  | error e =>
    constructor
    · intro h
      cases h
    · intro h
      cases h
  | ok first =>
    constructor
    · intro h
      cases h
      rfl
    · intro h
      cases h
      rfl

/-- A computation has an image for its result if it has a result of which it is the image. -/
theorem map_eq_ok_iff {g : α → β} {b : β} : x.map g = .ok b ↔ ∃ a, x = .ok a ∧ g a = b := by
  cases x with
  | error e =>
    constructor
    · intro h
      cases h
    · rintro ⟨_, h, _⟩
      cases h
  | ok a =>
    constructor
    · intro h
      cases h
      exact ⟨a, rfl, rfl⟩
    · rintro ⟨_, h, rfl⟩
      cases h
      rfl

/-- Whatever the first computation succeeds with, the second succeeds with something that corresponds to it. -/
def Refines (Corresponds : α → β → Prop) (x : Except ε α) (y : Except δ β) : Prop :=
  ∀ a, x = .ok a → ∃ b, y = .ok b ∧ Corresponds a b

namespace Refines

variable {ε' δ' γ κ : Type} {R : α → β → Prop} {S : γ → κ → Prop} {y : Except δ β}

theorem ok {a : α} {b : β} (h : R a b) : Refines R (.ok a : Except ε α) (.ok b : Except δ β) := by
  intro _ ha
  cases ha
  exact ⟨b, rfl, h⟩

theorem error (e : ε) : Refines R (.error e) y := by
  intro _ ha
  cases ha

theorem refl (x : Except ε α) : Refines Eq x x := fun a ha => ⟨a, ha, rfl⟩

/-- What corresponds step by step corresponds as a whole. -/
theorem bind {f : α → Except ε γ} {g : β → Except δ κ} (h : Refines R x y)
    (hfg : ∀ a b, R a b → Refines S (f a) (g b)) : Refines S (x >>= f) (y >>= g) := by
  intro c hc
  obtain ⟨a, hx, hf⟩ := bind_eq_ok_iff.1 hc
  obtain ⟨b, rfl, hab⟩ := h a hx
  exact hfg a b hab c hf

/-- A step whose result on one side is a function of that on the other. -/
theorem bind_eq {of : α → β} {f : α → Except ε γ} {g : β → Except δ κ} (h : Refines (of · = ·) x y)
    (hfg : ∀ a, Refines S (f a) (g (of a))) : Refines S (x >>= f) (y >>= g) :=
  h.bind fun a _ hab => hab ▸ hfg a

/-- It does not matter how errors are told. -/
theorem mapError {f : ε → ε'} {g : δ → δ'} (h : Refines R x y) : Refines R (x.mapError f) (y.mapError g) := by
  intro a ha
  obtain ⟨b, hy, hab⟩ := h a (mapError_eq_ok_iff.1 ha)
  exact ⟨b, mapError_eq_ok_iff.2 hy, hab⟩

end Refines

/-- Both computations succeed, with results that correspond, or both fail with the same error. -/
def Agrees (Corresponds : α → β → Prop) (x : Except ε α) (y : Except ε β) : Prop :=
  (∃ a b, x = .ok a ∧ y = .ok b ∧ Corresponds a b) ∨ ∃ e, x = .error e ∧ y = .error e

namespace Agrees

variable {γ κ : Type} {R : α → β → Prop} {S : γ → κ → Prop} {y : Except ε β}

theorem ok {a : α} {b : β} (h : R a b) : Agrees R (.ok a : Except ε α) (.ok b) := Or.inl ⟨a, b, rfl, rfl, h⟩

theorem error (e : ε) : Agrees R (.error e) (.error e) := Or.inr ⟨e, rfl, rfl⟩

theorem refl (x : Except ε α) : Agrees Eq x x := by
  cases x with
  | ok a => exact ok rfl
  | error e => exact error e

/-- What agrees step by step agrees as a whole. -/
theorem bind {f : α → Except ε γ} {g : β → Except ε κ} (h : Agrees R x y)
    (hfg : ∀ a b, R a b → Agrees S (f a) (g b)) : Agrees S (x >>= f) (y >>= g) := by
  rcases h with ⟨a, b, rfl, rfl, hab⟩ | ⟨e, rfl, rfl⟩
  · exact hfg a b hab
  · exact error e

/-- A step whose result on one side is a function of that on the other. -/
theorem bind_eq {of : α → β} {f : α → Except ε γ} {g : β → Except ε κ} (h : Agrees (of · = ·) x y)
    (hfg : ∀ a, Agrees S (f a) (g (of a))) : Agrees S (x >>= f) (y >>= g) :=
  h.bind fun a _ hab => hab ▸ hfg a

/-- Errors may be told in another way, if in the same way on both sides. -/
theorem mapError (h : Agrees R x y) (f : ε → δ) : Agrees R (x.mapError f) (y.mapError f) := by
  rcases h with ⟨a, b, rfl, rfl, hab⟩ | ⟨e, rfl, rfl⟩
  · exact ok hab
  · exact error (f e)

end Agrees

/-- Whatever error a computation fails with has a property. -/
def Raises (P : ε → Prop) (x : Except ε α) : Prop := ∀ e, x = .error e → P e

namespace Raises

variable {P : ε → Prop} {Q : δ → Prop}

theorem ok (a : α) : Raises P (.ok a) := fun _ h => nomatch h

theorem error {e : ε} (h : P e) : Raises P (.error e : Except ε α) := by
  intro _ he
  cases he
  exact h

/-- The errors of a whole are those of its steps. -/
theorem bind (hx : Raises P x) (hf : ∀ a, Raises P (f a)) : Raises P (x >>= f) := by
  intro e he
  rcases bind_eq_error_iff.1 he with hfirst | ⟨a, -, hrest⟩
  · exact hx e hfirst
  · exact hf a e hrest

/-- If errors are told in another way, then what they are told as is raised. -/
theorem mapError {g : ε → δ} (hx : Raises P x) (hg : ∀ e, P e → Q (g e)) : Raises Q (x.mapError g) := by
  cases x with
  | error e => exact error (hg e (hx e rfl))
  | ok a => exact ok a

end Raises

/-- Whatever a computation succeeds with has a property. -/
def Yields (P : α → Prop) (x : Except ε α) : Prop := ∀ a, x = .ok a → P a

namespace Yields

variable {P : α → Prop} {Q : β → Prop}

theorem ok {a : α} (h : P a) : Yields P (.ok a : Except ε α) := by
  intro _ ha
  cases ha
  exact h

theorem error (e : ε) : Yields P (.error e) := fun _ h => nomatch h

/-- Each step may rely on what the step before it yields. -/
theorem bind (hx : Yields P x) (hf : ∀ a, P a → Yields Q (f a)) : Yields Q (x >>= f) := by
  intro b hb
  obtain ⟨a, ha, hfa⟩ := bind_eq_ok_iff.1 hb
  exact hf a (hx a ha) b hfa

/-- Where the last step yields the property in any case, the steps before it do not matter. -/
theorem after (hf : ∀ a, Yields Q (f a)) : Yields Q (x >>= f) := by
  intro b hb
  obtain ⟨a, -, hfa⟩ := bind_eq_ok_iff.1 hb
  exact hf a b hfa

/-- What results are like does not depend on how errors are told. -/
theorem mapError (hx : Yields P x) (g : ε → δ) : Yields P (x.mapError g) :=
  fun a ha => hx a (mapError_eq_ok_iff.1 ha)

end Yields

end Prebake
