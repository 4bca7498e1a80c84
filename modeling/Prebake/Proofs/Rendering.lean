import Prebake.Proofs.Evaluation
import Prebake.Proofs.Except
import Prebake.Rendering

/-!
# Attempts in a wider scope

An attempt that is not open, be it with markup or with an obstacle that no scope removes, is the same in every wider
scope (`Primitive.widens_attempt`), and it has had the markup of every child (`Primitive.isSome_of_not_isOpen`).
-/

namespace Prebake

/-- Whether an attempt could turn out differently in a wider scope or with more children rendered. -/
def Attempt.isOpen : Attempt → Bool
  | .ok _ => false
  | .error reason => reason.isRetryable

variable {inner outer : Scope}

/-- An evaluation that is open leaves a reason to try again. -/
theorem Reason.isRetryable_ofEvaluation (prop : String) {e : EvalError} (h : e.isOpen = true) :
    (ofEvaluation prop e).isRetryable = true := by
  cases e with
  | missingBinding name => rfl
  | runtimeOnly name => rfl
  | notComputable obstacle => simp [EvalError.isOpen] at h

namespace Draft

/-- A property written in a scope is written the same way in a wider one. -/
theorem widens_addProp (houter : ∀ layer ∈ outer, layer.bindings.SparesPredefined) (draft : Draft) (prop : String)
    (given : Given) :
    Widens Reason.isRetryable (draft.addProp inner prop given) (draft.addProp (inner ++ outer) prop given) := by
  unfold addProp
  split
  · exact .refl _
  · refine Widens.bind ?_ fun _ => .refl _
    exact (given.widens_eval houter).mapError fun _ => Reason.isRetryable_ofEvaluation prop

/-- What is written for all properties stays the same in a wider scope, unless a property was still open. -/
theorem widens_addProps (houter : ∀ layer ∈ outer, layer.bindings.SparesPredefined) (draft : Draft)
    (props : Givens) :
    Widens Reason.isRetryable (draft.addProps inner props) (draft.addProps (inner ++ outer) props) := by
  induction props generalizing draft with
  | nil => exact .refl _
  | cons entry props ih =>
    obtain ⟨prop, given⟩ := entry
    exact (draft.widens_addProp houter prop given).bind fun next => ih next

/-- No property is a reason that blames a child. -/
theorem addProp_ne_deferredChild {scope : Scope} {draft : Draft} {prop child : String} {given : Given} :
    draft.addProp scope prop given ≠ .error (.deferredChild child) := by
  intro h
  unfold addProp at h
  split at h
  · cases h
  · rcases bind_eq_error_iff.1 h with heval | ⟨value, -, hvalue⟩
    · cases hresult : given.eval scope with
      | ok value =>
        rw [hresult] at heval
        cases heval
      | error e =>
        rw [hresult] at heval
        cases e <;> cases heval
    · unfold addValue at hvalue
      split at hvalue <;> split at hvalue <;> cases hvalue

/-- Properties never blame a child. -/
theorem addProps_ne_deferredChild {scope : Scope} {draft : Draft} {props : Givens} {child : String} :
    draft.addProps scope props ≠ .error (.deferredChild child) := by
  induction props generalizing draft with
  | nil => exact nofun
  | cons entry props ih =>
    intro h
    rcases bind_eq_error_iff.1 h with hfirst | ⟨next, -, hrest⟩
    · exact addProp_ne_deferredChild hfirst
    · exact ih hrest

end Draft

namespace Primitive

variable {p : Primitive}

/-- With the same markup of children, an attempt stands in a wider scope unless it is open. -/
theorem widens_attempt (houter : ∀ layer ∈ outer, layer.bindings.SparesPredefined) (p : Primitive)
    (children : List (Option Rendered)) :
    Widens Reason.isRetryable (p.attempt children inner) (p.attempt children (inner ++ outer)) := by
  refine Widens.bind (.refl _) fun markup => ?_
  exact ((Draft.begin p.tag).widens_addProps houter p.props).bind fun _ => .refl _

/-- An attempt that is not open turns out the same in a wider scope. -/
theorem attempt_append_of_not_isOpen (houter : ∀ layer ∈ outer, layer.bindings.SparesPredefined)
    {children : List (Option Rendered)} (h : (p.attempt children inner).isOpen = false) :
    p.attempt children (inner ++ outer) = p.attempt children inner := by
  rcases widens_attempt houter p children with ⟨reason, heq, hopen⟩ | heq
  · rw [heq, Attempt.isOpen, hopen] at h
    cases h
  · exact heq

/-- Only with markup for all children does an attempt get past them. -/
theorem childMarkup_eq_ok {children : List (String × Option Rendered)} {markup : List Rendered}
    (h : childMarkup children = .ok markup) : children.map (·.2) = markup.map some := by
  induction children generalizing markup with
  | nil =>
    cases h
    rfl
  | cons child rest ih =>
    obtain ⟨id, _ | rendered⟩ := child
    · cases h
    · obtain ⟨others, hrest, heq⟩ := bind_eq_ok_iff.1 h
      cases heq
      rw [List.map_cons, List.map_cons, ih hrest]

/-- A deferred child leaves an attempt open. -/
theorem childMarkup_eq_error {children : List (String × Option Rendered)} {reason : Reason}
    (h : childMarkup children = .error reason) : ∃ child, reason = .deferredChild child := by
  induction children with
  | nil => cases h
  | cons child rest ih =>
    obtain ⟨id, _ | rendered⟩ := child
    · cases h
      exact ⟨id, rfl⟩
    · rcases bind_eq_error_iff.1 h with hrest | ⟨_, -, heq⟩
      · exact ih hrest
      · cases heq

/-- An attempt that is not open renders the primitive with the markup that each of its children has. -/
theorem exists_markup_of_not_isOpen {known : String → Option Rendered} {scope : Scope}
    (h : (p.attempt (p.children.map known) scope).isOpen = false) :
    ∃ markup, p.children.map known = markup.map some ∧ p.attempt (p.children.map known) scope = p.render markup scope := by
  unfold attempt at h ⊢
  cases hmarkup : childMarkup (p.children.zip (p.children.map known)) with
  | error reason =>
    obtain ⟨child, rfl⟩ := childMarkup_eq_error hmarkup
    rw [hmarkup] at h
    cases h
  | ok markup =>
    have hall := childMarkup_eq_ok hmarkup
    rw [List.map_snd_zip (by simp)] at hall
    exact ⟨markup, hall, rfl⟩

/-- An attempt that is not open has found markup for all children. -/
theorem isSome_of_not_isOpen {known : String → Option Rendered} {scope : Scope}
    (h : (p.attempt (p.children.map known) scope).isOpen = false) :
    ∀ child ∈ p.children, (known child).isSome = true := by
  obtain ⟨markup, hall, -⟩ := exists_markup_of_not_isOpen h
  intro child hchild
  have hin : known child ∈ markup.map some := hall ▸ List.mem_map_of_mem hchild
  obtain ⟨rendered, -, heq⟩ := List.mem_map.1 hin
  rw [← heq]
  rfl

/-- An attempt that a child defers names the first child without markup. -/
theorem find?_of_childMarkup_eq_error {children : List (String × Option Rendered)} {child : String}
    (h : childMarkup children = .error (.deferredChild child)) : children.find? (·.2.isNone) = some (child, none) := by
  induction children with
  | nil => cases h
  | cons first rest ih =>
    obtain ⟨id, _ | rendered⟩ := first
    · cases h
      rfl
    · rcases bind_eq_error_iff.1 h with hrest | ⟨_, -, heq⟩
      · exact ih hrest
      · cases heq

/-- Only a child without markup is a reason that blames a child. -/
theorem render_ne_deferredChild {markup : List Rendered} {scope : Scope} {child : String} :
    p.render markup scope ≠ .error (.deferredChild child) := by
  intro h
  rcases bind_eq_error_iff.1 h with hprops | ⟨_, -, heq⟩
  · exact Draft.addProps_ne_deferredChild hprops
  · cases heq

/-- A primitive that is deferred because of a child is deferred because of the first child without markup. -/
theorem find?_of_attempt_eq_deferredChild {known : String → Option Rendered} {scope : Scope} {child : String}
    (h : p.attempt (p.children.map known) scope = .error (.deferredChild child)) :
    p.children.find? (fun id => (known id).isNone) = some child := by
  rcases bind_eq_error_iff.1 h with hmarkup | ⟨_, -, hrender⟩
  · have hfound := find?_of_childMarkup_eq_error hmarkup
    rw [← List.map_prod_left_eq_zip, List.find?_map, Option.map_eq_some_iff] at hfound
    obtain ⟨first, hfirst, heq⟩ := hfound
    obtain ⟨rfl, -⟩ := Prod.mk.inj heq
    exact hfirst
  · exact absurd hrender render_ne_deferredChild

end Primitive

end Prebake
