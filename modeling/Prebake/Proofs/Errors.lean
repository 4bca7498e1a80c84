import Prebake.Evaluation
import Prebake.Proofs.Except

/-!
# Where errors come from

An evaluation fails with the error of a name that it asks for, or with one that tells of an expression or of a name without a
binding (`EvalError.IsPlain`). So whatever is known of the plain errors and of those of the names is known of all errors of an
evaluation (`Expr.raises_eval`); in particular only a name can bring an error about bindings under evaluation.
-/

namespace Prebake

/-- The obstacle has nothing to do with the bindings that are under evaluation. -/
def Obstacle.IsPlain : Obstacle → Prop
  | selfReference _ | nestedTooDeeply _ => False
  | _ => True

/-- The error tells of an expression or of a name without a binding. -/
def EvalError.IsPlain : EvalError → Prop
  | missingBinding _ => True
  | runtimeOnly name => name ∈ runtimeNames
  | notComputable obstacle => obstacle.IsPlain

/-! ## Operations -/

namespace Value

variable (a b : Value)

/-- A condition fails for a server value, and for nothing else. -/
theorem raises_truth : Raises Obstacle.IsPlain a.truth := by
  cases a with
  | server segments => exact .error trivial
  | _ => exact .ok _

mutual

/-- A value has a text unless there is a server value in it. -/
theorem raises_toText : ∀ v : Value, Raises Obstacle.IsPlain v.toText
  | undefined | null | bool _ | number _ | string _ | object _ => .ok _
  | server _ => .error trivial
  | array items => by
    rw [toText]
    exact (raises_itemTexts items).bind fun _ => .ok _

/-- The texts of items fail with the first item that has none. -/
theorem raises_itemTexts : ∀ items : List Value, Raises Obstacle.IsPlain (itemTexts items)
  | [] => .ok _
  | item :: items => by
    have hrest : ∀ text : String, Raises Obstacle.IsPlain (do return text :: (← itemTexts items)) :=
      fun _ => (raises_itemTexts items).bind fun _ => .ok _
    rw [itemTexts]
    cases item.isNullish with
    | true => exact hrest ""
    | false => exact (raises_toText item).bind hrest

end

/-- A value has a number unless it is a server value or a list with one in it. -/
theorem raises_toNumber : Raises Obstacle.IsPlain a.toNumber := by
  cases a with
  | server segments => exact .error trivial
  | array items => exact (raises_toText (array items)).bind fun _ => .ok _
  | _ => exact .ok _

/-- Arithmetic fails where one of the sides has no number. -/
theorem raises_onNumbers (f : Float → Float → Float) : Raises Obstacle.IsPlain (a.onNumbers f b) :=
  a.raises_toNumber.bind fun _ => b.raises_toNumber.bind fun _ => .ok _

/-- Addition joins or calculates, and only the latter can fail. -/
theorem raises_add : Raises Obstacle.IsPlain (a.add b) := by
  unfold add
  split
  · exact .ok _
  · exact a.raises_onNumbers b (· + ·)

/-- Strict equality fails for server values. -/
theorem raises_strictEq : Raises Obstacle.IsPlain (a.strictEq b) := by
  unfold strictEq
  split
  · exact .error trivial
  · split <;> exact .ok _

/-- Loose equality fails for server values, and else where one of the sides has no number. -/
theorem raises_looseEq : Raises Obstacle.IsPlain (a.looseEq b) := by
  unfold looseEq
  split
  · exact .error trivial
  split
  · exact .ok _
  split
  · exact .ok _
  split
  · exact .ok _
  · exact a.raises_toNumber.bind fun _ => b.raises_toNumber.bind fun _ => .ok _

/-- The order of two values fails for server values, and else where one of them has no number. -/
theorem raises_order : Raises Obstacle.IsPlain (a.order b) := by
  unfold order
  split
  · exact .error trivial
  split
  · exact .ok _
  · exact a.raises_toNumber.bind fun _ => b.raises_toNumber.bind fun _ => .ok _

theorem raises_onOrder (holds : Ordering → Bool) : Raises Obstacle.IsPlain (a.onOrder holds b) :=
  (a.raises_order b).bind fun _ => .ok _

/-- A property fails for `undefined`, for `null` and for server values. -/
theorem raises_property (key : String) : Raises Obstacle.IsPlain (a.property key) := by
  cases a with
  | server segments => exact .error trivial
  | undefined | null => exact .error trivial
  | _ => exact .ok _

/-- A member fails with its key or with the property that the key names. -/
theorem raises_member : Raises Obstacle.IsPlain (a.member b) := b.raises_toText.bind a.raises_property

end Value

/-- An operator in front of a value fails as the operation that it stands for. -/
theorem UnaryOp.raises_apply (op : UnaryOp) (a : Value) : Raises Obstacle.IsPlain (op.apply a) := by
  cases op with
  | not => exact a.raises_truth.bind fun _ => .ok _
  | negate | plus => exact a.raises_toNumber.bind fun _ => .ok _
  | typeOf | void => exact .ok _
  | bitNot | delete => exact .error trivial

/-- An operator between two values fails as the operation that it stands for. -/
theorem BinaryOp.raises_apply (op : BinaryOp) (a b : Value) : Raises Obstacle.IsPlain (op.apply a b) := by
  cases op with
  | add => exact a.raises_add b
  | subtract | multiply | divide | remainder | power => exact a.raises_onNumbers b _
  | strictEq | strictNe => exact (a.raises_strictEq b).bind fun _ => .ok _
  | looseEq | looseNe => exact (a.raises_looseEq b).bind fun _ => .ok _
  | lt | le | gt | ge => exact a.raises_onOrder b _
  | bitOr | bitXor | bitAnd | shiftLeft | shiftRight | shiftRightZero | inObject | instanceOf => exact .error trivial

/-- A logical operator asks for a condition on its left, or whether anything is there. -/
theorem LogicalOp.raises_decidedBy (op : LogicalOp) (a : Value) : Raises Obstacle.IsPlain (op.decidedBy a) := by
  cases op with
  | and => exact a.raises_truth.bind fun _ => .ok _
  | or => exact a.raises_truth
  | coalesce => exact .ok _

/-! ## Expressions -/

/-- The error is plain or has a property. -/
def EvalError.IsPlainOr (P : EvalError → Prop) (e : EvalError) : Prop := e.IsPlain ∨ P e

open EvalError (IsPlainOr)

variable {P : EvalError → Prop}

theorem Evaluated.raises_ofOperation {α : Type} {x : Except Obstacle α} (h : Raises Obstacle.IsPlain x) :
    Raises (IsPlainOr P) (x : Evaluated α) :=
  h.mapError fun _ => Or.inl

/-- An obstacle is raised as it is. -/
theorem raises_notComputable {α : Type} {obstacle : Obstacle} (h : obstacle.IsPlain) :
    Raises (IsPlainOr P) (notComputable obstacle : Evaluated α) :=
  .error (Or.inl h)

/-- A name that nothing binds is missing, unless it has a value of its own. -/
theorem raises_unboundValue (name : String) : Raises (IsPlainOr P) (unboundValue name) := by
  unfold unboundValue
  split
  · exact .ok _
  split
  · exact .ok _
  split
  · exact .ok _
  split
  · exact .error (Or.inl (List.contains_iff_mem.1 ‹_›))
  · exact .error (Or.inl trivial)

namespace Expr

variable {valueOf : String → Evaluated Value}

mutual

/-- The errors of an expression are those of its names and plain ones. -/
theorem raises_eval (h : ∀ n, Raises (IsPlainOr P) (valueOf n)) :
    ∀ e : Expr, Raises (IsPlainOr P) (e.eval valueOf)
  | .null | .bool _ | .number _ | .string _ => by
    simp only [eval]
    exact .ok _
  | .privateMember _ | .assign .. => by
    simp only [eval]
    exact raises_notComputable trivial
  | .construct kind => by
    simp only [eval]
    refine raises_notComputable ?_
    cases kind <;> trivial
  | .name n => by
    simp only [eval]
    exact h n
  | .paren inner | .typed inner | .nonNull inner => by
    simp only [eval]
    exact raises_eval h inner
  | .template head rest => by
    simp only [eval]
    exact (raises_evalSpans h rest).bind fun _ => .ok _
  | .array elements => by
    simp only [eval]
    exact (raises_evalElements h elements).bind fun _ => .ok _
  | .object properties => by
    simp only [eval]
    exact (raises_evalProperties h [] properties).bind fun _ => .ok _
  | .member e key optional => by
    simp only [eval]
    refine (raises_eval h e).bind fun receiver => ?_
    split
    · exact .ok _
    · exact Evaluated.raises_ofOperation (receiver.raises_member _)
  | .index e key optional => by
    simp only [eval]
    refine (raises_eval h e).bind fun receiver => ?_
    split
    · exact .ok _
    · exact (raises_eval h key).bind fun name => Evaluated.raises_ofOperation (receiver.raises_member name)
  | .chain accesses => by
    have haccesses := raises_eval h accesses
    cases accesses with
    | member object key optional => simpa only [eval] using haccesses
    | index object key optional => simpa only [eval] using haccesses
    | _ =>
      simp only [eval]
      exact raises_notComputable trivial
  | .unary op operand => by
    simp only [eval]
    exact (raises_eval h operand).bind fun a => Evaluated.raises_ofOperation (op.raises_apply a)
  | .binary op left right => by
    simp only [eval]
    exact (raises_eval h left).bind fun a => (raises_eval h right).bind fun b =>
      Evaluated.raises_ofOperation (op.raises_apply a b)
  | .logical op left right => by
    simp only [eval]
    refine (raises_eval h left).bind fun a => ?_
    refine (Evaluated.raises_ofOperation (op.raises_decidedBy a)).bind fun decided => ?_
    split
    · exact .ok _
    · exact raises_eval h right
  | .conditional test yes no => by
    simp only [eval]
    refine (raises_eval h test).bind fun a => ?_
    refine (Evaluated.raises_ofOperation a.raises_truth).bind fun holds => ?_
    split
    · exact raises_eval h yes
    · exact raises_eval h no

/-- The spans of a template raise what their expressions raise. -/
theorem raises_evalSpans (h : ∀ n, Raises (IsPlainOr P) (valueOf n)) :
    ∀ spans : List Span, Raises (IsPlainOr P) (evalSpans valueOf spans)
  | [] => .ok _
  | .mk hole text :: rest => by
    simp only [evalSpans]
    exact (raises_eval h hole).bind fun _ => (raises_evalSpans h rest).bind fun _ => .ok _

/-- The elements of an array raise what their expressions raise, and spread ones an obstacle. -/
theorem raises_evalElements (h : ∀ n, Raises (IsPlainOr P) (valueOf n)) :
    ∀ elements : List Element, Raises (IsPlainOr P) (evalElements valueOf elements)
  | [] => .ok _
  | .item e :: rest => by
    simp only [evalElements]
    exact (raises_eval h e).bind fun _ => (raises_evalElements h rest).bind fun _ => .ok _
  | .blank :: rest => by
    simp only [evalElements]
    exact (raises_evalElements h rest).bind fun _ => .ok _
  | .spread .. :: _ => raises_notComputable trivial

/-- The properties of an object raise what their keys and expressions raise. -/
theorem raises_evalProperties (h : ∀ n, Raises (IsPlainOr P) (valueOf n)) (fields : List (String × Value)) :
    ∀ properties : List Property, Raises (IsPlainOr P) (evalProperties valueOf fields properties)
  | [] => .ok _
  | .entry key e :: rest => by
    simp only [evalProperties]
    exact (raises_evalKey h key).bind fun name => (raises_eval h e).bind fun value =>
      raises_evalProperties h (setField name value fields) rest
  | .shorthand n :: rest => by
    simp only [evalProperties]
    exact (h n).bind fun value => raises_evalProperties h (setField n value fields) rest
  | .shorthandDefault _ _ :: _ | .methodOrAccessor :: _ | .spread .. :: _ => raises_notComputable trivial

/-- A key raises what its expression raises, if it has one. -/
theorem raises_evalKey (h : ∀ n, Raises (IsPlainOr P) (valueOf n)) :
    ∀ key : Key, Raises (IsPlainOr P) (evalKey valueOf key)
  | .text _ | .number _ => .ok _
  | .computed e => by
    simp only [evalKey]
    exact (raises_eval h e).bind fun value => Evaluated.raises_ofOperation value.raises_toText
  | .unsupported => raises_notComputable trivial

end

end Expr

/-- The same holds of whatever may be given. -/
theorem Given.raises_evalWith {valueOf : String → Evaluated Value} (h : ∀ n, Raises (IsPlainOr P) (valueOf n))
    (given : Given) :
    Raises (IsPlainOr P) (given.evalWith valueOf) := by
  have hsource : ∀ source, Raises (IsPlainOr P) (evalSource valueOf source) := by
    intro source
    simp only [evalSource]
    split
    · exact .ok _
    · split
      · exact Expr.raises_eval h _
      · exact raises_notComputable trivial
  cases given with
  | literal value => exact .ok _
  | slot name => exact .ok _
  | expression source => exact hsource source
  | unclassified source => exact hsource source

end Prebake
