import Prebake.Proofs.Filling
import Prebake.Proofs.Value.Texts

/-!
# The texts of evaluated values

Evaluation makes server values in two ways only: a slot is given, or text is joined and merged. So all server values in what an
evaluation yields have slots and are in normal form (`Given.yields_eval`), and for such values the plain text and the segments
of a value agree (`texts_agree`). What a name stands for is taken to be sound in `Expr.yields_eval`; in a scope it is
(`Scope.yields_valueOf`), since a binding is evaluated like anything else.
-/

namespace Prebake

open Value (IsSound)

/-! ## Operators -/

section Operators

variable (a b : Value)

/-- An operator in front of a value yields nothing that has slots in it. -/
theorem UnaryOp.yields_apply (op : UnaryOp) : Yields IsSound (op.apply a) := by
  cases op with
  | not | negate | plus => exact .after fun _ => .ok nofun
  | typeOf | void => exact .ok nofun
  | bitNot | delete => exact .error _

/-- An operator between two values yields slots only by joining texts. -/
theorem BinaryOp.yields_apply (op : BinaryOp) : Yields IsSound (op.apply a b) := by
  have hnumbers : ∀ f, Yields IsSound (a.onNumbers f b) := fun _ => .after fun _ => .after fun _ => .ok nofun
  have horder : ∀ holds, Yields IsSound (a.onOrder holds b) := fun _ => .after fun _ => .ok nofun
  cases op with
  | add => exact a.yields_add b
  | subtract | multiply | divide | remainder | power => exact hnumbers _
  | strictEq | strictNe | looseEq | looseNe => exact .after fun _ => .ok nofun
  | lt | le | gt | ge => exact horder _
  | bitOr | bitXor | bitAnd | shiftLeft | shiftRight | shiftRightZero | inObject | instanceOf => exact .error _

end Operators

/-! ## Expressions -/

namespace Expr

variable {valueOf : String → Evaluated Value}

mutual

/-- The value of an expression is sound if those of its names are. -/
theorem yields_eval (h : ∀ n, Yields IsSound (valueOf n)) : ∀ e : Expr, Yields IsSound (e.eval valueOf)
  | .null | .bool _ | .number _ | .string _ => by
    simp only [eval]
    exact .ok nofun
  | .privateMember _ | .assign .. | .construct _ => by
    simp only [eval]
    exact .error _
  | .name n => by
    simp only [eval]
    exact h n
  | .paren inner | .typed inner | .nonNull inner => by
    simp only [eval]
    exact yields_eval h inner
  | .template head rest => by
    simp only [eval]
    exact .after fun _ => .ok (Value.isSound_ofSegments _)
  | .array elements => by
    simp only [eval]
    exact (yields_evalElements h elements).bind fun _ hitems => .ok (Value.AllServers.array_iff.2 hitems)
  | .object properties => by
    simp only [eval]
    refine (yields_evalProperties h properties [] (List.forall_mem_nil _)).bind fun _ hfields => ?_
    exact .ok (Value.AllServers.object_iff.2 hfields)
  | .member e key optional => by
    simp only [eval]
    refine (yields_eval h e).bind fun receiver hreceiver => ?_
    split
    · exact .ok nofun
    · exact (Value.yields_member hreceiver _).mapError _
  | .index e key optional => by
    simp only [eval]
    refine (yields_eval h e).bind fun receiver hreceiver => ?_
    split
    · exact .ok nofun
    · exact .after fun name => (Value.yields_member hreceiver name).mapError _
  | .chain accesses => by
    have haccesses := yields_eval h accesses
    cases accesses with
    | member object key optional => simpa only [eval] using haccesses
    | index object key optional => simpa only [eval] using haccesses
    | _ =>
      simp only [eval]
      exact .error _
  | .unary op operand => by
    simp only [eval]
    exact .after fun a => (op.yields_apply a).mapError _
  | .binary op left right => by
    simp only [eval]
    exact .after fun a => .after fun b => (op.yields_apply a b).mapError _
  | .logical op left right => by
    simp only [eval]
    refine (yields_eval h left).bind fun value hvalue => .after fun decided => ?_
    split
    · exact .ok hvalue
    · exact yields_eval h right
  | .conditional test yes no => by
    simp only [eval]
    refine .after fun _ => .after fun holds => ?_
    split
    · exact yields_eval h yes
    · exact yields_eval h no

/-- The elements of an array are sound. -/
theorem yields_evalElements (h : ∀ n, Yields IsSound (valueOf n)) : ∀ elements : List Element,
    Yields (fun items : List Value => ∀ item ∈ items, item.IsSound) (evalElements valueOf elements)
  | [] => .ok (List.forall_mem_nil _)
  | .item e :: rest => by
    simp only [evalElements]
    refine (yields_eval h e).bind fun item hitem => (yields_evalElements h rest).bind fun items hitems => ?_
    exact .ok (List.forall_mem_cons.2 ⟨hitem, hitems⟩)
  | .blank :: rest => by
    simp only [evalElements]
    exact (yields_evalElements h rest).bind fun items hitems => .ok (List.forall_mem_cons.2 ⟨nofun, hitems⟩)
  | .spread .. :: _ => .error _

/-- The properties of an object are sound if the fields that are there already are. -/
theorem yields_evalProperties (h : ∀ n, Yields IsSound (valueOf n)) : ∀ (properties : List Property)
    (fields : List (String × Value)), (∀ field ∈ fields, field.2.IsSound) →
      Yields (fun fields : List (String × Value) => ∀ field ∈ fields, field.2.IsSound)
        (evalProperties valueOf fields properties)
  | [], _, hfields => .ok hfields
  | .entry key e :: rest, fields, hfields => by
    simp only [evalProperties]
    refine .after fun name => (yields_eval h e).bind fun value hvalue => ?_
    exact yields_evalProperties h rest _ (Value.forall_mem_setField hvalue hfields)
  | .shorthand n :: rest, fields, hfields => by
    simp only [evalProperties]
    exact (h n).bind fun value hvalue => yields_evalProperties h rest _ (Value.forall_mem_setField hvalue hfields)
  | .shorthandDefault _ _ :: _, _, _ | .methodOrAccessor :: _, _, _ | .spread .. :: _, _, _ => .error _

end

end Expr

/-- The same holds of whatever may be given. -/
theorem Given.yields_evalWith {valueOf : String → Evaluated Value} (h : ∀ n, Yields IsSound (valueOf n)) (given : Given) :
    Yields IsSound (given.evalWith valueOf) := by
  have hsource : ∀ source, Yields IsSound (evalSource valueOf source) := by
    intro source
    simp only [evalSource]
    split
    · exact .ok nofun
    · split
      · exact Expr.yields_eval h _
      · exact .error _
  cases given with
  | literal value => exact .ok (Value.isSound_ofJson value)
  | slot name => exact .ok (Value.isSound_ofSlot name)
  | expression source => exact hsource source
  | unclassified source => exact hsource source

/-! ## Names in scopes -/

/-- A predefined name has a sound value. -/
theorem yields_unboundValue (name : String) : Yields IsSound (unboundValue name) := by
  unfold unboundValue
  split
  · exact .ok nofun
  split
  · exact .ok nofun
  split
  · exact .ok nofun
  split
  · exact .error _
  · exact .error _

/-- The values of names in a scope are sound, however deep their bindings nest. -/
theorem Scope.yields_valueOfName (room : Nat) (active : List String) (scope : Scope) (name : String) :
    Yields IsSound (valueOfName room active scope name) := by
  induction room generalizing active scope name with
  | zero =>
    cases hfound : scope.find? name with
    | none =>
      simp only [valueOfName, hfound]
      exact yields_unboundValue name
    | some found =>
      simp only [valueOfName, hfound]
      split
      · exact .error _
      · exact .error _
  | succ room ih =>
    cases hfound : scope.find? name with
    | none =>
      simp only [valueOfName, hfound]
      exact yields_unboundValue name
    | some found =>
      obtain ⟨index, given⟩ := found
      simp only [valueOfName, hfound]
      split
      · exact .error _
      · exact given.yields_evalWith fun n => ih _ _ n

/-- What is given has a sound value in every scope, or none. -/
theorem Given.yields_eval (given : Given) (scope : Scope) : Yields IsSound (given.eval scope) :=
  given.yields_evalWith (Scope.yields_valueOfName maxNesting [] scope)

/-- Every server value in the value of what is given has a slot, no empty text and no two texts side by side; and a value whose
server values have slots has a plain text exactly if there is no slot among its segments, namely the text that these spell. -/
theorem texts_agree :
    (∀ (given : Given) (scope : Scope) (v : Value), given.eval scope = .ok v →
      v.AllServers Segment.IsServerText) ∧
    ∀ v : Value, (v.AllServers fun segments => ∃ segment ∈ segments, segment.isSlot = true) → ∀ s : String,
      (v.toText = .ok s ↔ (∀ segment ∈ v.toSegments, segment.isSlot = false) ∧ s = Segment.literal v.toSegments) := by
  constructor
  · intro given scope v hv
    exact given.yields_eval scope v hv
  · intro v hv s
    have hslots : v.AllServers fun segments => segments.any Segment.isSlot = true :=
      fun segments hsegments => List.any_eq_true.2 (hv segments hsegments)
    rw [Value.toText_eq v hslots]
    exact Segment.toText_eq_ok_iff

/-- A letter to somebody whose name is known to the server only. -/
def letterScope : Scope := [⟨"letter", [("dear", .expression "`Dear ${name}`")]⟩, ⟨"page", [("name", .slot "name")]⟩]

/-- A list with the salutation of the letter in it has no plain text, while a list of texts has one. -/
theorem texts_agree_letter :
    (Given.expression "dear + \",\"").eval letterScope = .ok (.server [.text "Dear ", .slot "name", .text ","]) ∧
      Segment.IsServerText [.text "Dear ", .slot "name", .text ","] ∧
      (∀ s, (Value.array [.null, .server [.text "Dear ", .slot "name", .text ","]]).toText ≠ .ok s) ∧
      (Value.array [.string "Ada", .null, .array [.string "!"]]).toText = .ok "Ada,,!" := by
  have heval : (Given.expression "dear + \",\"").eval letterScope =
      .ok (.server [.text "Dear ", .slot "name", .text ","]) := by
    decide +kernel
  obtain ⟨hsound, hagree⟩ := texts_agree
  have htext := Value.AllServers.server_iff.1 (hsound _ _ _ heval)
  refine ⟨heval, htext, ?_, ?_⟩
  · have hservers : Value.AllServers (fun segments => ∃ segment ∈ segments, segment.isSlot = true)
        (.array [.null, .server [.text "Dear ", .slot "name", .text ","]]) := by
      simp only [Value.AllServers.array_iff, List.forall_mem_cons, Value.AllServers.server_iff]
      exact ⟨nofun, htext.hasSlot, List.forall_mem_nil _⟩
    intro s hs
    obtain ⟨hnone, -⟩ := (hagree _ hservers s).1 hs
    exact absurd (hnone (.slot "name") (by decide)) (by decide)
  · have hservers : Value.AllServers (fun segments => ∃ segment ∈ segments, segment.isSlot = true)
        (.array [.string "Ada", .null, .array [.string "!"]]) := by
      simp only [Value.AllServers.array_iff, List.forall_mem_cons]
      exact ⟨nofun, nofun, ⟨nofun, List.forall_mem_nil _⟩, List.forall_mem_nil _⟩
    exact (hagree _ hservers "Ada,,!").2 ⟨by decide, by decide⟩

end Prebake
