import Prebake.Evaluation

/-!
# Evaluation in a wider scope

A scope grows outwards: layers are added behind those that are there. `Widens` says what such growth may change of an
outcome, namely only an error that was still open. It holds of the value of a name (`Scope.widens_valueOf`) and is kept
by everything that evaluation does with the values of names (`Expr.widens_eval`), so it holds of whatever is evaluated.
The one thing that can go wrong is a name that has a value without being bound: an outer layer could shadow it.
-/

namespace Prebake

/-- What was found first stands: either it is an error that is still open, or it is what is found in the end. -/
def Widens {ε α : Type} (isOpen : ε → Bool) (narrow wide : Except ε α) : Prop :=
  (∃ e, narrow = .error e ∧ isOpen e = true) ∨ wide = narrow

namespace Widens

variable {ε δ α β : Type} {isOpen : ε → Bool} {narrow wide : Except ε α}

theorem refl (outcome : Except ε α) : Widens isOpen outcome outcome := Or.inr rfl

/-- What stands step by step stands as a whole. -/
theorem bind {f g : α → Except ε β} (h : Widens isOpen narrow wide) (hfg : ∀ a, Widens isOpen (f a) (g a)) :
    Widens isOpen (narrow >>= f) (wide >>= g) := by
  rcases h with ⟨e, rfl, hopen⟩ | rfl
  · exact Or.inl ⟨e, rfl, hopen⟩
  · cases wide with
    | error e => exact refl _
    | ok a => exact hfg a

/-- Errors may be told in other words as long as those that are open stay open. -/
theorem mapError {isOpen' : δ → Bool} {f : ε → δ} (h : Widens isOpen narrow wide)
    (hf : ∀ e, isOpen e = true → isOpen' (f e) = true) :
    Widens isOpen' (narrow.mapError f) (wide.mapError f) := by
  rcases h with ⟨e, rfl, hopen⟩ | rfl
  · exact Or.inl ⟨f e, rfl, hf e hopen⟩
  · exact refl _

end Widens

/-- Whether a wider scope could lift an error. -/
def EvalError.isOpen : EvalError → Bool
  | missingBinding _ | runtimeOnly _ => true
  | notComputable _ => false

/-! ## Expressions -/

namespace Expr

variable {isOpen : EvalError → Bool} {narrow wide : String → Evaluated Value}

mutual

/-- An expression has the same value in a wider scope, unless some name in it is still open. -/
theorem widens_eval (h : ∀ n, Widens isOpen (narrow n) (wide n)) :
    ∀ e : Expr, Widens isOpen (e.eval narrow) (e.eval wide)
  | .null | .bool _ | .number _ | .string _ | .privateMember _ | .assign .. | .construct _ => by
    simp only [eval]
    exact .refl _
  | .name n => by
    simp only [eval]
    exact h n
  | .paren inner | .typed inner | .nonNull inner => by
    simp only [eval]
    exact widens_eval h inner
  | .template head rest => by
    simp only [eval]
    exact (widens_evalSpans h rest).bind fun _ => .refl _
  | .array elements => by
    simp only [eval]
    exact (widens_evalElements h elements).bind fun _ => .refl _
  | .object properties => by
    simp only [eval]
    exact (widens_evalProperties h [] properties).bind fun _ => .refl _
  | .member e key optional => by
    simp only [eval]
    exact (widens_eval h e).bind fun _ => .refl _
  | .index e key optional => by
    simp only [eval]
    refine (widens_eval h e).bind fun receiver => ?_
    split
    · exact .refl _
    · exact (widens_eval h key).bind fun _ => .refl _
  | .chain accesses => by
    have haccesses := widens_eval h accesses
    cases accesses with
    | member object key optional => simpa only [eval] using haccesses
    | index object key optional => simpa only [eval] using haccesses
    | _ =>
      simp only [eval]
      exact .refl _
  | .unary op operand => by
    simp only [eval]
    exact (widens_eval h operand).bind fun _ => .refl _
  | .binary op left right => by
    simp only [eval]
    exact (widens_eval h left).bind fun _ => (widens_eval h right).bind fun _ => .refl _
  | .logical op left right => by
    simp only [eval]
    refine (widens_eval h left).bind fun value => Widens.bind (.refl _) fun decided => ?_
    split
    · exact .refl _
    · exact widens_eval h right
  | .conditional test yes no => by
    simp only [eval]
    refine (widens_eval h test).bind fun value => Widens.bind (.refl _) fun holds => ?_
    split
    · exact widens_eval h yes
    · exact widens_eval h no

/-- The spans of a template keep what is decided about names. -/
theorem widens_evalSpans (h : ∀ n, Widens isOpen (narrow n) (wide n)) :
    ∀ spans : List Span, Widens isOpen (evalSpans narrow spans) (evalSpans wide spans)
  | [] => .refl _
  | .mk hole text :: rest => by
    simp only [evalSpans]
    exact (widens_eval h hole).bind fun _ => (widens_evalSpans h rest).bind fun _ => .refl _

/-- The elements of an array keep what is decided about names. -/
theorem widens_evalElements (h : ∀ n, Widens isOpen (narrow n) (wide n)) :
    ∀ elements : List Element, Widens isOpen (evalElements narrow elements) (evalElements wide elements)
  | [] => .refl _
  | .item e :: rest => by
    simp only [evalElements]
    exact (widens_eval h e).bind fun _ => (widens_evalElements h rest).bind fun _ => .refl _
  | .blank :: rest => by
    simp only [evalElements]
    exact (widens_evalElements h rest).bind fun _ => .refl _
  | .spread .. :: _ => .refl _

/-- The properties of an object keep what is decided about names, whatever fields are there before them. -/
theorem widens_evalProperties (h : ∀ n, Widens isOpen (narrow n) (wide n))
    (fields : List (String × Value)) : ∀ properties : List Property,
    Widens isOpen (evalProperties narrow fields properties) (evalProperties wide fields properties)
  | [] => .refl _
  | .entry key e :: rest => by
    simp only [evalProperties]
    refine (widens_evalKey h key).bind fun name => (widens_eval h e).bind fun value => ?_
    exact widens_evalProperties h (setField name value fields) rest
  | .shorthand n :: rest => by
    simp only [evalProperties]
    exact (h n).bind fun value => widens_evalProperties h (setField n value fields) rest
  | .shorthandDefault _ _ :: _ | .methodOrAccessor :: _ | .spread .. :: _ => .refl _

/-- A key keeps what is decided about the names in it. -/
theorem widens_evalKey (h : ∀ n, Widens isOpen (narrow n) (wide n)) :
    ∀ key : Key, Widens isOpen (evalKey narrow key) (evalKey wide key)
  | .text _ | .number _ | .unsupported => .refl _
  | .computed e => by
    simp only [evalKey]
    exact (widens_eval h e).bind fun _ => .refl _

end

end Expr

/-- The same holds of whatever may be given. -/
theorem Given.widens_evalWith {isOpen : EvalError → Bool} {narrow wide : String → Evaluated Value}
    (h : ∀ n, Widens isOpen (narrow n) (wide n)) (given : Given) :
    Widens isOpen (given.evalWith narrow) (given.evalWith wide) := by
  have hsource : ∀ source, Widens isOpen (evalSource narrow source) (evalSource wide source) := by
    intro source
    simp only [evalSource]
    split
    · exact .refl _
    · split
      · exact Expr.widens_eval h _
      · exact .refl _
  cases given with
  | literal value => exact .refl _
  | slot name => exact .refl _
  | expression source => exact hsource source
  | unclassified source => exact hsource source

/-! ## Names in scopes -/

/-- The names that have a value without being bound. -/
def predefinedNames : List String := ["undefined", "NaN", "Infinity"]

/-- Bindings that leave the predefined names alone. -/
def Givens.SparesPredefined (bindings : Givens) : Prop := ∀ name ∈ predefinedNames, bindings.lookup name = none

namespace Scope

/-- The layers of the inner scope come first. -/
theorem find?_append (inner outer : Scope) (name : String) :
    (inner ++ outer).find? name =
      (inner.find? name).or ((outer.find? name).map fun (index, given) => (index + inner.length, given)) := by
  induction inner with
  | nil =>
    cases h : outer.find? name <;> simp [find?, h]
  | cons layer inner ih =>
    rw [List.cons_append, find?, find?, ih]
    cases layer.bindings.lookup name with
    | some given => rfl
    | none =>
      cases Scope.find? inner name with
      | some found => rfl
      | none => cases outer.find? name <;> simp [Nat.add_assoc]

theorem lt_length_of_find? {scope : Scope} {name : String} {index : Nat} {given : Given}
    (h : scope.find? name = some (index, given)) : index < scope.length := by
  induction scope generalizing index with
  | nil => simp [find?] at h
  | cons layer scope ih =>
    rw [find?] at h
    cases hlookup : layer.bindings.lookup name with
    | some found =>
      simp only [hlookup, Option.some.injEq, Prod.mk.injEq] at h
      simp [← h.1]
    | none =>
      simp only [hlookup, Option.map_eq_some_iff, Prod.mk.injEq] at h
      obtain ⟨⟨earlier, found⟩, hfound, rfl, rfl⟩ := h
      exact Nat.succ_lt_succ (ih hfound)

/-- If no layer binds the names that have values of their own, they are not found. -/
theorem find?_eq_none_of_sparesPredefined {scope : Scope} (h : ∀ layer ∈ scope, layer.bindings.SparesPredefined)
    {name : String} (hname : name ∈ predefinedNames) : scope.find? name = none := by
  induction scope with
  | nil => rfl
  | cons layer scope ih =>
    rw [find?, h layer List.mem_cons_self name hname, ih fun other hother => h other (List.mem_cons_of_mem _ hother)]
    rfl

end Scope

/-- A name without a binding has a value or is still open. -/
theorem unboundValue_open {name : String} (h : name ∉ predefinedNames) :
    ∃ e, unboundValue name = .error e ∧ e.isOpen = true := by
  simp only [predefinedNames, List.mem_cons, List.not_mem_nil, or_false, not_or] at h
  obtain ⟨hundefined, hnan, hinfinity⟩ := h
  by_cases hruntime : runtimeNames.contains name = true
  · exact ⟨.runtimeOnly name, by rw [unboundValue, if_neg hundefined, if_neg hnan, if_neg hinfinity, if_pos hruntime], rfl⟩
  · exact ⟨.missingBinding name, by
      rw [unboundValue, if_neg hundefined, if_neg hnan, if_neg hinfinity, if_neg hruntime], rfl⟩

namespace Scope

variable {inner outer : Scope} {name : String}

/-- What is bound in inner layers stays bound to the same. -/
theorem find?_append_of_bound {found : Nat × Given} (h : inner.find? name = some found) :
    (inner ++ outer).find? name = some found := by
  rw [find?_append, h, Option.some_or]

/-- A binding is known by its layer, and layers behind it do not change that. -/
theorem bindingMark_append {index : Nat} (h : index < inner.length) :
    (inner ++ outer).bindingMark index name = inner.bindingMark index name := by
  rw [bindingMark, bindingMark, owner?, owner?, List.getElem?_append_left h]

/-- A scope that starts at an inner layer grows with the whole. -/
theorem fromLayer_append {index : Nat} (h : index < inner.length) :
    (inner ++ outer).fromLayer index = inner.fromLayer index ++ outer :=
  List.drop_append_of_le_length (Nat.le_of_lt h)

/-- A name that the inner scope does not bind is still open there, or it is predefined and not bound further out. -/
theorem widens_of_unbound (houter : ∀ layer ∈ outer, layer.bindings.SparesPredefined) {room : Nat}
    {active : List String} (h : inner.find? name = none) :
    Widens EvalError.isOpen (valueOfName room active inner name) (valueOfName room active (inner ++ outer) name) := by
  have hinner : valueOfName room active inner name = unboundValue name := by
    rw [valueOfName, h]
  by_cases hname : name ∈ predefinedNames
  · have hwide : (inner ++ outer).find? name = none := by
      rw [find?_append, h, find?_eq_none_of_sparesPredefined houter hname]
      rfl
    rw [hinner, valueOfName, hwide]
    exact .refl _
  · rw [hinner]
    exact Or.inl (unboundValue_open hname)

/-- The value of a name stands in a wider scope, as long as the outer layers leave the predefined names alone. -/
theorem widens_valueOfName (houter : ∀ layer ∈ outer, layer.bindings.SparesPredefined) (room : Nat)
    (active : List String) (inner : Scope) (name : String) :
    Widens EvalError.isOpen (valueOfName room active inner name) (valueOfName room active (inner ++ outer) name) := by
  induction room generalizing active inner name with
  | zero =>
    cases hfound : inner.find? name with
    | none => exact widens_of_unbound houter hfound
    | some found =>
      obtain ⟨index, given⟩ := found
      have hindex := lt_length_of_find? hfound
      simp only [valueOfName, hfound, find?_append_of_bound hfound, bindingMark_append hindex]
      exact .refl _
  | succ room ih =>
    cases hfound : inner.find? name with
    | none => exact widens_of_unbound houter hfound
    | some found =>
      obtain ⟨index, given⟩ := found
      have hindex := lt_length_of_find? hfound
      simp only [valueOfName, hfound, find?_append_of_bound hfound, bindingMark_append hindex,
        fromLayer_append hindex]
      split
      · exact .refl _
      · exact given.widens_evalWith fun n => ih _ _ n

end Scope

/-- The value of what is given stands in a wider scope. -/
theorem Given.widens_eval {inner outer : Scope} (houter : ∀ layer ∈ outer, layer.bindings.SparesPredefined)
    (given : Given) : Widens EvalError.isOpen (given.eval inner) (given.eval (inner ++ outer)) :=
  given.widens_evalWith (Scope.widens_valueOfName houter maxNesting [] inner)

end Prebake
