import Prebake.Evaluation
import Prebake.Primitive
import Prebake.Proofs.Value.Renaming

/-!
# Evaluation over renamed slots

The name of a slot has no part in an evaluation: over a scope in which the slots have other names, what is given has the value
with the slots renamed, or is refused for the same reason (`Given.agrees_eval`). Operators and expressions keep the relation
between the two evaluations (`Expr.agrees_eval`), a name brings it along from its binding (`Scope.agrees_valueOfName`).
-/

namespace Prebake

variable {f : String → String}

/-! ## Operators -/

section Operators

variable (a b : Value)

open Value (renameSlots)

/-- An operator in front of a value does not see names of slots. -/
theorem UnaryOp.agrees_apply (op : UnaryOp) :
    Agrees (renameSlots f · = ·) (op.apply a) (op.apply (a.renameSlots f)) := by
  cases op with
  | not =>
    simp only [apply, Value.truth_renameSlots]
    exact (Agrees.refl a.truth).bind_eq fun _ => .ok rfl
  | negate | plus =>
    simp only [apply, Value.toNumber_renameSlots]
    exact (Agrees.refl a.toNumber).bind_eq fun _ => .ok rfl
  | typeOf => exact .ok (by rw [renameSlots, Value.typeName_renameSlots])
  | void => exact .ok rfl
  | bitNot | delete => exact .error _

/-- Arithmetic does not see names of slots. -/
theorem Value.agrees_onNumbers (op : Float → Float → Float) :
    Agrees (renameSlots f · = ·) (a.onNumbers op b) ((a.renameSlots f).onNumbers op (b.renameSlots f)) := by
  simp only [onNumbers, toNumber_renameSlots]
  exact (Agrees.refl a.toNumber).bind_eq fun _ => (Agrees.refl b.toNumber).bind_eq fun _ => .ok rfl

/-- Comparisons do not see names of slots. -/
theorem Value.agrees_onOrder (holds : Ordering → Bool) :
    Agrees (renameSlots f · = ·) (a.onOrder holds b) ((a.renameSlots f).onOrder holds (b.renameSlots f)) := by
  simp only [onOrder, order_renameSlots]
  exact (Agrees.refl (a.order b)).bind_eq fun _ => .ok rfl

/-- An operator between two values does not see names of slots. -/
theorem BinaryOp.agrees_apply (op : BinaryOp) :
    Agrees (renameSlots f · = ·) (op.apply a b) (op.apply (a.renameSlots f) (b.renameSlots f)) := by
  cases op with
  | add => exact a.agrees_add b
  | subtract | multiply | divide | remainder | power => exact a.agrees_onNumbers b _
  | strictEq | strictNe =>
    simp only [apply, Value.strictEq_renameSlots]
    exact (Agrees.refl (a.strictEq b)).bind_eq fun _ => .ok rfl
  | looseEq | looseNe =>
    simp only [apply, Value.looseEq_renameSlots]
    exact (Agrees.refl (a.looseEq b)).bind_eq fun _ => .ok rfl
  | lt | le | gt | ge => exact a.agrees_onOrder b _
  | bitOr | bitXor | bitAnd | shiftLeft | shiftRight | shiftRightZero | inObject | instanceOf => exact .error _

/-- Whether the left side decides does not depend on names of slots. -/
theorem LogicalOp.decidedBy_renameSlots (op : LogicalOp) : op.decidedBy (a.renameSlots f) = op.decidedBy a := by
  cases op with
  | and => simp only [decidedBy, Value.truth_renameSlots]
  | or => exact a.truth_renameSlots
  | coalesce => simp only [decidedBy, Value.isNullish_renameSlots]

end Operators

theorem Evaluated.agrees_ofOperation {α β : Type} {R : α → β → Prop} {x : Except Obstacle α} {y : Except Obstacle β}
    (h : Agrees R x y) : Agrees R (x : Evaluated α) (y : Evaluated β) :=
  h.mapError _

/-! ## Expressions -/

namespace Expr

open Value (renameSlots renameItems renameFields)

variable {valueOf renamedValueOf : String → Evaluated Value}

mutual

/-- If the names in an expression have their values renamed, then so has the expression. -/
theorem agrees_eval (h : ∀ n, Agrees (renameSlots f · = ·) (valueOf n) (renamedValueOf n)) :
    ∀ e : Expr, Agrees (renameSlots f · = ·) (e.eval valueOf) (e.eval renamedValueOf)
  | .null | .bool _ | .number _ | .string _ => by
    simp only [eval]
    exact .ok rfl
  | .privateMember _ | .assign .. | .construct _ => by
    simp only [eval]
    exact .error _
  | .name n => by
    simp only [eval]
    exact h n
  | .paren inner | .typed inner | .nonNull inner => by
    simp only [eval]
    exact agrees_eval h inner
  | .template head rest => by
    simp only [eval]
    refine (agrees_evalSpans h rest).bind_eq fun segments => .ok ?_
    exact (Value.ofSegments_renameSlot (.text head :: segments)).symm
  | .array elements => by
    simp only [eval]
    exact (agrees_evalElements h elements).bind_eq fun _ => .ok rfl
  | .object properties => by
    simp only [eval]
    exact (agrees_evalProperties h [] properties).bind_eq fun _ => .ok rfl
  -- whether an optional access stops is decided by the kind of its receiver, which renaming keeps
  | .member e key optional => by
    simp only [eval]
    refine (agrees_eval h e).bind_eq fun receiver => ?_
    rw [Value.isNullish_renameSlots]
    split
    · exact .ok rfl
    · exact Evaluated.agrees_ofOperation (receiver.agrees_member (.string key))
  | .index e key optional => by
    simp only [eval]
    refine (agrees_eval h e).bind_eq fun receiver => ?_
    rw [Value.isNullish_renameSlots]
    split
    · exact .ok rfl
    · exact (agrees_eval h key).bind_eq fun name => Evaluated.agrees_ofOperation (receiver.agrees_member name)
  -- a chain evaluates its accesses, and it is an obstacle around anything else
  | .chain accesses => by
    have haccesses := agrees_eval h accesses
    cases accesses with
    | member object key optional => simpa only [eval] using haccesses
    | index object key optional => simpa only [eval] using haccesses
    | _ =>
      simp only [eval]
      exact .error _
  | .unary op operand => by
    simp only [eval]
    exact (agrees_eval h operand).bind_eq fun a => Evaluated.agrees_ofOperation (op.agrees_apply a)
  | .binary op left right => by
    simp only [eval]
    exact (agrees_eval h left).bind_eq fun a => (agrees_eval h right).bind_eq fun b =>
      Evaluated.agrees_ofOperation (op.agrees_apply a b)
  | .logical op left right => by
    simp only [eval]
    refine (agrees_eval h left).bind_eq fun a => ?_
    rw [LogicalOp.decidedBy_renameSlots]
    refine (Agrees.refl (Evaluated.ofOperation (op.decidedBy a))).bind_eq fun decided => ?_
    split
    · exact .ok rfl
    · exact agrees_eval h right
  | .conditional test yes no => by
    simp only [eval]
    refine (agrees_eval h test).bind_eq fun a => ?_
    rw [Value.truth_renameSlots]
    refine (Agrees.refl (Evaluated.ofOperation a.truth)).bind_eq fun holds => ?_
    split
    · exact agrees_eval h yes
    · exact agrees_eval h no

/-- The spans of a template are renamed segment by segment. -/
theorem agrees_evalSpans (h : ∀ n, Agrees (renameSlots f · = ·) (valueOf n) (renamedValueOf n)) :
    ∀ spans : List Span, Agrees (·.map (Segment.renameSlot f) = ·) (evalSpans valueOf spans) (evalSpans renamedValueOf spans)
  | [] => .ok rfl
  | .mk hole text :: rest => by
    simp only [evalSpans]
    refine (agrees_eval h hole).bind_eq fun value => (agrees_evalSpans h rest).bind_eq fun segments => .ok ?_
    rw [Value.toSegments_renameSlots, List.map_append]
    rfl

/-- The elements of an array are renamed one by one. -/
theorem agrees_evalElements (h : ∀ n, Agrees (renameSlots f · = ·) (valueOf n) (renamedValueOf n)) :
    ∀ elements : List Element,
      Agrees (renameItems f · = ·) (evalElements valueOf elements) (evalElements renamedValueOf elements)
  | [] => .ok rfl
  | .item e :: rest => by
    simp only [evalElements]
    exact (agrees_eval h e).bind_eq fun _ => (agrees_evalElements h rest).bind_eq fun _ => .ok rfl
  | .blank :: rest => by
    simp only [evalElements]
    exact (agrees_evalElements h rest).bind_eq fun _ => .ok rfl
  | .spread .. :: _ => .error _

/-- The properties of an object are renamed one by one, behind the fields that are there already. -/
theorem agrees_evalProperties (h : ∀ n, Agrees (renameSlots f · = ·) (valueOf n) (renamedValueOf n))
    (fields : List (String × Value)) : ∀ properties : List Property,
    Agrees (renameFields f · = ·) (evalProperties valueOf fields properties)
      (evalProperties renamedValueOf (renameFields f fields) properties)
  | [] => .ok rfl
  | .entry key e :: rest => by
    simp only [evalProperties]
    refine (agrees_evalKey h key).bind_eq fun name => (agrees_eval h e).bind_eq fun value => ?_
    rw [← Value.setField_renameFields]
    exact agrees_evalProperties h (setField name value fields) rest
  | .shorthand n :: rest => by
    simp only [evalProperties]
    refine (h n).bind_eq fun value => ?_
    rw [← Value.setField_renameFields]
    exact agrees_evalProperties h (setField n value fields) rest
  | .shorthandDefault _ _ :: _ | .methodOrAccessor :: _ | .spread .. :: _ => .error _

/-- A key is a text, so there is nothing in it to be renamed. -/
theorem agrees_evalKey (h : ∀ n, Agrees (renameSlots f · = ·) (valueOf n) (renamedValueOf n)) :
    ∀ key : Key, Agrees Eq (evalKey valueOf key) (evalKey renamedValueOf key)
  | .text _ | .number _ => .refl _
  | .computed e => by
    simp only [evalKey]
    refine (agrees_eval h e).bind_eq fun value => ?_
    rw [Value.toText_renameSlots]
    exact .refl _
  | .unsupported => .error _

end

end Expr

/-! ## What is given -/

/-- The same given with another name for the slot that it is, if it is one. -/
def Given.renameSlots (f : String → String) : Given → Given
  | slot name => slot (f name)
  | literal value => literal value
  | expression source => expression source
  | unclassified source => unclassified source

/-- Properties or bindings with other names for slots. -/
def Givens.renameSlots (f : String → String) (givens : Givens) : Givens :=
  givens.map fun entry => (entry.1, entry.2.renameSlots f)

/-- The layer with other names for slots. -/
def Layer.renameSlots (f : String → String) (layer : Layer) : Layer where
  owner := layer.owner
  bindings := Givens.renameSlots f layer.bindings

/-- The scope with other names for slots. -/
def Scope.renameSlots (f : String → String) (scope : Scope) : Scope := scope.map (Layer.renameSlots f)

/-- The primitive with other names for slots. -/
def Primitive.renameSlots (f : String → String) (p : Primitive) : Primitive :=
  { p with props := Givens.renameSlots f p.props, bindings := Givens.renameSlots f p.bindings }

/-- What is given has the renamed value over renamed slots, if this is so for all names. -/
theorem Given.agrees_evalWith {valueOf renamedValueOf : String → Evaluated Value}
    (h : ∀ n, Agrees (Value.renameSlots f · = ·) (valueOf n) (renamedValueOf n)) (given : Given) :
    Agrees (Value.renameSlots f · = ·) (given.evalWith valueOf) ((given.renameSlots f).evalWith renamedValueOf) := by
  have hsource : ∀ source,
      Agrees (Value.renameSlots f · = ·) (evalSource valueOf source) (evalSource renamedValueOf source) := by
    intro source
    simp only [evalSource]
    split
    · exact .ok rfl
    · split
      · exact Expr.agrees_eval h _
      · exact .error _
  cases given with
  | literal value => exact .ok (Value.renameSlots_ofJson value)
  | slot name => exact .ok rfl
  | expression source => exact hsource source
  | unclassified source => exact hsource source

/-! ## Names in scopes -/

namespace Scope

/-- A binding is found where it was, with its slots renamed. -/
theorem find?_renameSlots (scope : Scope) (name : String) : (scope.renameSlots f).find? name =
    (scope.find? name).map fun (index, given) => (index, given.renameSlots f) := by
  induction scope with
  | nil => rfl
  | cons layer scope ih =>
    rw [renameSlots, List.map_cons, find?, find?, Layer.renameSlots, Givens.renameSlots, lookup_map, ← renameSlots, ih]
    cases layer.bindings.lookup name with
    | some given => rfl
    | none => cases Scope.find? scope name <;> rfl

/-- A binding is known by its owner and its own name, and by no slot. -/
theorem bindingMark_renameSlots (scope : Scope) (index : Nat) (name : String) :
    (scope.renameSlots f).bindingMark index name = scope.bindingMark index name := by
  rw [bindingMark, bindingMark, owner?, owner?, renameSlots, List.getElem?_map, Option.map_map]
  rfl

theorem fromLayer_renameSlots (scope : Scope) (index : Nat) :
    (scope.renameSlots f).fromLayer index = (scope.fromLayer index).renameSlots f :=
  List.map_drop.symm

/-- A predefined name has a value without slots. -/
theorem agrees_unboundValue (name : String) :
    Agrees (Value.renameSlots f · = ·) (unboundValue name) (unboundValue name) := by
  simp only [unboundValue]
  split
  · exact .ok rfl
  split
  · exact .ok rfl
  split
  · exact .ok rfl
  split
  · exact .error _
  · exact .error _

/-- The value of a name is renamed with the scope. The bindings under evaluation are the same on both sides, since renaming
slots keeps the owner and the names of each layer. -/
theorem agrees_valueOfName (room : Nat) (active : List String) (scope : Scope) (name : String) :
    Agrees (Value.renameSlots f · = ·) (valueOfName room active scope name)
      (valueOfName room active (scope.renameSlots f) name) := by
  induction room generalizing active scope name with
  | zero =>
    cases hfound : scope.find? name with
    | none =>
      simp only [valueOfName, find?_renameSlots, hfound, Option.map_none]
      exact agrees_unboundValue name
    | some found =>
      simp only [valueOfName, find?_renameSlots, hfound, Option.map_some, bindingMark_renameSlots]
      split
      · exact .error _
      · exact .error _
  | succ room ih =>
    cases hfound : scope.find? name with
    | none =>
      simp only [valueOfName, find?_renameSlots, hfound, Option.map_none]
      exact agrees_unboundValue name
    | some found =>
      obtain ⟨index, given⟩ := found
      simp only [valueOfName, find?_renameSlots, hfound, Option.map_some, bindingMark_renameSlots, fromLayer_renameSlots]
      split
      · exact .error _
      · exact given.agrees_evalWith fun n => ih _ _ n

end Scope

/-- What is given over renamed slots has the renamed value, or is refused for the same reason. -/
theorem Given.agrees_eval (f : String → String) (given : Given) (scope : Scope) :
    Agrees (Value.renameSlots f · = ·) (given.eval scope) ((given.renameSlots f).eval (scope.renameSlots f)) :=
  given.agrees_evalWith (Scope.agrees_valueOfName maxNesting [] scope)

end Prebake
