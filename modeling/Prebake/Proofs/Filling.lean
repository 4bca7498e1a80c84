import Prebake.Evaluation
import Prebake.Proofs.Value.Filling

/-!
# Evaluation over filled slots

A scope may give slots, whose contents are known only when a page is served. What evaluation makes of them is right
whatever they will hold: `Given.fill_eval` says that a value found over slots becomes, once they are filled, the very
value that is found where the contents are given as literals. Operators and expressions keep the relation between the
two evaluations (`Expr.refines_eval`), a name brings it along from its binding (`Scope.refines_valueOfName`).
-/

namespace Prebake

variable {contents : String → String}

/-! ## Operators -/

section Operators

variable (a b : Value)

open Value (fill)

/-- An operator in front of a value over slots has the value that it has over their contents, filled. -/
theorem UnaryOp.refines_apply (op : UnaryOp) :
    Refines (fill contents · = ·) (op.apply a) (op.apply (a.fill contents)) := by
  cases op with
  | not => exact (a.refines_truth).bind_eq fun _ => .ok rfl
  | negate | plus => exact (a.refines_toNumber).bind_eq fun _ => .ok rfl
  | typeOf => exact .ok (by rw [fill, Value.typeName_fill])
  | void => exact .ok rfl
  | bitNot | delete => exact .error _

/-- Arithmetic that succeeds over slots needs none of them. -/
theorem Value.refines_onNumbers (f : Float → Float → Float) :
    Refines (fill contents · = ·) (a.onNumbers f b) ((a.fill contents).onNumbers f (b.fill contents)) :=
  (a.refines_toNumber).bind_eq fun _ => (b.refines_toNumber).bind_eq fun _ => .ok rfl

/-- A comparison that succeeds over slots needs none of them. -/
theorem Value.refines_onOrder (holds : Ordering → Bool) :
    Refines (fill contents · = ·) (a.onOrder holds b) ((a.fill contents).onOrder holds (b.fill contents)) :=
  (a.refines_order b).bind_eq fun _ => .ok rfl

/-- An operator between values over slots has the value that it has over their contents, once these are filled in. -/
theorem BinaryOp.refines_apply (op : BinaryOp) :
    Refines (fill contents · = ·) (op.apply a b) (op.apply (a.fill contents) (b.fill contents)) := by
  cases op with
  | add => exact a.refines_add b
  | subtract | multiply | divide | remainder | power => exact a.refines_onNumbers b _
  | strictEq | strictNe => exact (a.refines_strictEq b).bind_eq fun _ => .ok rfl
  | looseEq | looseNe => exact (a.refines_looseEq b).bind_eq fun _ => .ok rfl
  | lt | le | gt | ge => exact a.refines_onOrder b _
  | bitOr | bitXor | bitAnd | shiftLeft | shiftRight | shiftRightZero | inObject | instanceOf => exact .error _

/-- Where the left operand decides, it decides alike once it is filled. -/
theorem LogicalOp.refines_decidedBy (op : LogicalOp) :
    Refines Eq (op.decidedBy a) (op.decidedBy (a.fill contents)) := by
  cases op with
  | and => exact (a.refines_truth).bind_eq fun _ => .refl _
  | or => exact a.refines_truth
  | coalesce => exact .ok (by rw [Value.isNullish_fill])

end Operators

/-- What relates two operations relates them as steps of an evaluation. -/
theorem Evaluated.refines_ofOperation {α β : Type} {R : α → β → Prop} {x : Except Obstacle α} {y : Except Obstacle β}
    (h : Refines R x y) : Refines R (x : Evaluated α) (y : Evaluated β) :=
  h.mapError

/-! ## Expressions -/

namespace Expr

open Value (fill fillItems fillFields)

variable {valueOf filledValueOf : String → Evaluated Value}

mutual

/-- If the names in an expression have their values filled, then so has the expression. -/
theorem refines_eval (h : ∀ n, Refines (fill contents · = ·) (valueOf n) (filledValueOf n)) :
    ∀ e : Expr, Refines (fill contents · = ·) (e.eval valueOf) (e.eval filledValueOf)
  | .null | .bool _ | .number _ | .string _ => by
    simp only [eval]
    exact .ok rfl
  | .privateMember _ | .assign .. | .construct _ => by
    simp only [eval]
    exact .error _
  | .name n => by
    simp only [eval]
    exact h n
  | .paren inner | .typed inner | .nonNull inner => by
    simp only [eval]
    exact refines_eval h inner
  | .template head rest => by
    simp only [eval]
    exact (refines_evalSpans h rest).bind fun _ _ hrest => .ok (Value.fill_ofSegments_eq (hrest.cons head))
  | .array elements => by
    simp only [eval]
    exact (refines_evalElements h elements).bind_eq fun _ => .ok rfl
  | .object properties => by
    simp only [eval]
    exact (refines_evalProperties h [] properties).bind_eq fun _ => .ok rfl
  | .member e key optional => by
    simp only [eval]
    refine (refines_eval h e).bind_eq fun receiver => ?_
    rw [Value.isNullish_fill]
    split
    · exact .ok rfl
    · exact Evaluated.refines_ofOperation (receiver.refines_member (.string key))
  | .index e key optional => by
    simp only [eval]
    refine (refines_eval h e).bind_eq fun receiver => ?_
    rw [Value.isNullish_fill]
    split
    · exact .ok rfl
    · exact (refines_eval h key).bind_eq fun name => Evaluated.refines_ofOperation (receiver.refines_member name)
  | .chain accesses => by
    have haccesses := refines_eval h accesses
    cases accesses with
    | member object key optional => simpa only [eval] using haccesses
    | index object key optional => simpa only [eval] using haccesses
    | _ =>
      simp only [eval]
      exact .error _
  | .unary op operand => by
    simp only [eval]
    exact (refines_eval h operand).bind_eq fun a => Evaluated.refines_ofOperation (op.refines_apply a)
  | .binary op left right => by
    simp only [eval]
    exact (refines_eval h left).bind_eq fun a => (refines_eval h right).bind_eq fun b =>
      Evaluated.refines_ofOperation (op.refines_apply a b)
  | .logical op left right => by
    simp only [eval]
    refine (refines_eval h left).bind_eq fun a => ?_
    refine (Evaluated.refines_ofOperation (op.refines_decidedBy a)).bind_eq fun decided => ?_
    split
    · exact .ok rfl
    · exact refines_eval h right
  | .conditional test yes no => by
    simp only [eval]
    refine (refines_eval h test).bind_eq fun a => ?_
    refine (Evaluated.refines_ofOperation a.refines_truth).bind_eq fun holds => ?_
    split
    · exact refines_eval h yes
    · exact refines_eval h no

/-- The spans of a template are filled segment by segment. -/
theorem refines_evalSpans (h : ∀ n, Refines (fill contents · = ·) (valueOf n) (filledValueOf n)) :
    ∀ spans : List Span, Refines (Segment.FilledAs contents) (evalSpans valueOf spans) (evalSpans filledValueOf spans)
  | [] => .ok .nil
  | .mk hole text :: rest => by
    simp only [evalSpans]
    refine (refines_eval h hole).bind_eq fun value => ?_
    exact (refines_evalSpans h rest).bind fun _ _ hrest => .ok (value.filledAs_toSegments.append (hrest.cons text))

/-- The elements of an array are filled one by one. -/
theorem refines_evalElements (h : ∀ n, Refines (fill contents · = ·) (valueOf n) (filledValueOf n)) :
    ∀ elements : List Element,
      Refines (fillItems contents · = ·) (evalElements valueOf elements) (evalElements filledValueOf elements)
  | [] => .ok rfl
  | .item e :: rest => by
    simp only [evalElements]
    exact (refines_eval h e).bind_eq fun _ => (refines_evalElements h rest).bind_eq fun _ => .ok rfl
  | .blank :: rest => by
    simp only [evalElements]
    exact (refines_evalElements h rest).bind_eq fun _ => .ok rfl
  | .spread .. :: _ => .error _

/-- The properties of an object are filled one by one, behind the fields that are there already. -/
theorem refines_evalProperties (h : ∀ n, Refines (fill contents · = ·) (valueOf n) (filledValueOf n))
    (fields : List (String × Value)) : ∀ properties : List Property,
    Refines (fillFields contents · = ·) (evalProperties valueOf fields properties)
      (evalProperties filledValueOf (fillFields contents fields) properties)
  | [] => .ok rfl
  | .entry key e :: rest => by
    simp only [evalProperties]
    refine (refines_evalKey h key).bind_eq fun name => (refines_eval h e).bind_eq fun value => ?_
    rw [← Value.setField_fillFields]
    exact refines_evalProperties h (setField name value fields) rest
  | .shorthand n :: rest => by
    simp only [evalProperties]
    refine (h n).bind_eq fun value => ?_
    rw [← Value.setField_fillFields]
    exact refines_evalProperties h (setField n value fields) rest
  | .shorthandDefault _ _ :: _ | .methodOrAccessor :: _ | .spread .. :: _ => .error _

/-- A key is a text, so there are no slots in it to be filled. -/
theorem refines_evalKey (h : ∀ n, Refines (fill contents · = ·) (valueOf n) (filledValueOf n)) :
    ∀ key : Key, Refines Eq (evalKey valueOf key) (evalKey filledValueOf key)
  | .text _ | .number _ => .refl _
  | .computed e => by
    simp only [evalKey]
    exact (refines_eval h e).bind_eq fun value => Evaluated.refines_ofOperation value.refines_toText
  | .unsupported => .error _

end

end Expr

/-! ## What is given -/

/-- The contents of a slot given in its place. -/
def Given.fill (contents : String → String) : Given → Given
  | slot name => literal (.string (contents name))
  | literal value => literal value
  | expression source => expression source
  | unclassified source => unclassified source

/-- The bindings of a layer with the contents of each slot in its place. -/
def Layer.fill (contents : String → String) (layer : Layer) : Layer where
  owner := layer.owner
  bindings := layer.bindings.map fun binding => (binding.1, binding.2.fill contents)

/-- The scope with the contents of each slot in its place. -/
def Scope.fill (contents : String → String) (scope : Scope) : Scope := scope.map (Layer.fill contents)

/-- What is given has over slots the value that it has over their contents, if this is so for all names. -/
theorem Given.refines_evalWith {valueOf filledValueOf : String → Evaluated Value}
    (h : ∀ n, Refines (Value.fill contents · = ·) (valueOf n) (filledValueOf n)) (given : Given) :
    Refines (Value.fill contents · = ·) (given.evalWith valueOf) ((given.fill contents).evalWith filledValueOf) := by
  have hsource : ∀ source,
      Refines (Value.fill contents · = ·) (evalSource valueOf source) (evalSource filledValueOf source) := by
    intro source
    simp only [evalSource]
    split
    · exact .ok rfl
    · split
      · exact Expr.refines_eval h _
      · exact .error _
  cases given with
  | literal value => exact .ok (Value.fill_ofJson value)
  | slot name => exact .ok (by simp [Value.ofSlot, Value.fill, Value.ofJson, Segment.filled])
  | expression source => exact hsource source
  | unclassified source => exact hsource source

/-! ## Names in scopes -/

namespace Scope

/-- A binding is found where it was, with its slots filled. -/
theorem find?_fill (scope : Scope) (name : String) :
    (scope.fill contents).find? name = (scope.find? name).map fun (index, given) => (index, given.fill contents) := by
  induction scope with
  | nil => rfl
  | cons layer scope ih =>
    rw [fill, List.map_cons, find?, find?, Layer.fill, lookup_map, ← fill, ih]
    cases layer.bindings.lookup name with
    | some given => rfl
    | none => cases Scope.find? scope name <;> rfl

/-- Contents do not change what a binding is known by. -/
theorem bindingMark_fill (scope : Scope) (index : Nat) (name : String) :
    (scope.fill contents).bindingMark index name = scope.bindingMark index name := by
  rw [bindingMark, bindingMark, owner?, owner?, fill, List.getElem?_map, Option.map_map]
  rfl

/-- An outer part of a filled scope is the filled outer part. -/
theorem fromLayer_fill (scope : Scope) (index : Nat) :
    (scope.fill contents).fromLayer index = (scope.fromLayer index).fill contents :=
  List.map_drop.symm

/-- A predefined name has a value without slots. -/
theorem refines_unboundValue (name : String) :
    Refines (Value.fill contents · = ·) (unboundValue name) (unboundValue name) := by
  simp only [unboundValue]
  split
  · exact .ok rfl
  split
  · exact .ok rfl
  split
  · exact .ok rfl
  split
  · exact .error _
  · exact .error _

/-- The value of a name is filled with the scope. The bindings under evaluation are the same on both sides, since
filling keeps the owner and the names of each layer. -/
theorem refines_valueOfName (room : Nat) (active : List String) (scope : Scope) (name : String) :
    Refines (Value.fill contents · = ·) (valueOfName room active scope name)
      (valueOfName room active (scope.fill contents) name) := by
  induction room generalizing active scope name with
  | zero =>
    cases hfound : scope.find? name with
    | none =>
      simp only [valueOfName, find?_fill, hfound, Option.map_none]
      exact refines_unboundValue name
    | some found =>
      simp only [valueOfName, find?_fill, hfound, Option.map_some, bindingMark_fill]
      split
      · exact .error _
      · exact .error _
  | succ room ih =>
    cases hfound : scope.find? name with
    | none =>
      simp only [valueOfName, find?_fill, hfound, Option.map_none]
      exact refines_unboundValue name
    | some found =>
      obtain ⟨index, given⟩ := found
      simp only [valueOfName, find?_fill, hfound, Option.map_some, bindingMark_fill, fromLayer_fill]
      split
      · exact .error _
      · exact given.refines_evalWith fun n => ih _ _ n

end Scope

/-- A value found over slots becomes, with the slots filled, the value that is found over their contents. -/
theorem Given.eval_fill (contents : String → String) {given : Given} {scope : Scope} {v : Value}
    (h : given.eval scope = .ok v) : (given.fill contents).eval (scope.fill contents) = .ok (v.fill contents) := by
  obtain ⟨filled, hfilled, rfl⟩ := given.refines_evalWith (Scope.refines_valueOfName maxNesting [] scope) v h
  exact hfilled

/-- It can be told whether an outcome is a certain text with slots. -/
instance (outcome : Evaluated Value) (segments : List Segment) : Decidable (outcome = .ok (.server segments)) :=
  match outcome with
  | .ok (.server found) => decidable_of_iff (found = segments) (by simp)
  | .ok .undefined | .ok .null | .ok (.bool _) | .ok (.number _) | .ok (.string _) | .ok (.array _) | .ok (.object _)
  | .error _ => .isFalse (by simp)

/-- A greeting whose name is known to the server only, by way of a list in an outer layer. -/
def greetingScope : Scope :=
  [⟨"card", [("greeting", .expression "\"Hello, \" + names[0]")]⟩,
    ⟨"page", [("names", .expression "[user, typeof user]"), ("user", .slot "user")]⟩]

/-- The greeting to whoever it will be becomes the greeting to Ada. -/
theorem Given.greeting_fill :
    (Given.expression "greeting + \"!\"").eval greetingScope =
        .ok (.server [.text "Hello, ", .slot "user", .text "!"]) ∧
      ((Given.expression "greeting + \"!\"").fill fun _ => "Ada").eval (greetingScope.fill fun _ => "Ada") =
        .ok (.string "Hello, Ada!") := by
  have hopen : (Given.expression "greeting + \"!\"").eval greetingScope =
      .ok (.server [.text "Hello, ", .slot "user", .text "!"]) := by
    decide +kernel
  exact ⟨hopen, Given.eval_fill (fun _ => "Ada") hopen⟩

end Prebake
