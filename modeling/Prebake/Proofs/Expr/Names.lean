import Prebake.Expr.Grammar

/-!
# The names in an expression

Every name in an expression that has been read consists of characters of names (`Expr.isName_of_read?`). A reader that gives
something with a property wherever it reads keeps on doing so under the combinators of `TokenReader`; the rules of the grammar
are put together from these, and each of them builds its expressions from words at the cursor, which are proper.
-/

namespace Prebake

/-! ## Names -/

mutual

/-- The names in an expression whose values it may ask for. -/
def Expr.names : Expr → List String
  | .name n => [n]
  | .template _ spans => spanNames spans
  | .array elements => elementNames elements
  | .object properties => propertyNames properties
  | .index e key _ => e.names ++ key.names
  | .binary _ left right | .logical _ left right | .assign _ left right => left.names ++ right.names
  | .conditional test yes no => test.names ++ (yes.names ++ no.names)
  | .member e _ _ | .privateMember e | .chain e | .unary _ e | .paren e | .typed e | .nonNull e => e.names
  | .null | .bool _ | .number _ | .string _ | .construct _ => []

/-- The names in the holes of a template. -/
def Expr.spanNames : List Span → List String
  | [] => []
  | .mk hole _ :: rest => hole.names ++ spanNames rest

/-- The names in the places of an array. -/
def Expr.elementNames : List Element → List String
  | [] => []
  | .item e :: rest | .spread e _ :: rest => e.names ++ elementNames rest
  | .blank :: rest => elementNames rest

/-- The names in the members of an object. -/
def Expr.propertyNames : List Property → List String
  | [] => []
  | .entry key e :: rest => Expr.keyNames key ++ (e.names ++ propertyNames rest)
  | .shorthand n :: rest => n :: propertyNames rest
  | .shorthandDefault n e :: rest => n :: (e.names ++ propertyNames rest)
  | .methodOrAccessor :: rest => propertyNames rest
  | .spread e _ :: rest => e.names ++ propertyNames rest

/-- The names in the key of a property. -/
def Expr.keyNames : Key → List String
  | .computed e => e.names
  | .text _ | .number _ | .unsupported => []

end

namespace Expr

theorem elementNames_eq (elements : List Element) :
    elementNames elements = elements.flatMap fun element => elementNames [element] := by
  induction elements with
  | nil => rfl
  | cons element elements ih =>
    rw [List.flatMap_cons, ← ih]
    cases element <;> simp [elementNames]

theorem propertyNames_eq (properties : List Property) :
    propertyNames properties = properties.flatMap fun property => propertyNames [property] := by
  induction properties with
  | nil => rfl
  | cons property properties ih =>
    rw [List.flatMap_cons, ← ih]
    cases property <;> simp [propertyNames]

/-- Whether all names in an expression consist of characters of names. -/
def WellNamed (e : Expr) : Prop := ∀ n ∈ e.names, Identifier.IsName n

end Expr

/-! ## Readers -/

namespace TokenReader

/-- Whatever a reader gives has a property, wherever it reads. -/
def Gives {α : Type} (p : TokenReader α) (Q : α → Prop) : Prop := ∀ c a after, p c = some (a, after) → Q a

namespace Gives

variable {α β : Type} {Q : α → Prop} {R : β → Prop} {p : TokenReader α} {f : α → TokenReader β}

theorem pure {a : α} (h : Q a) : Gives (pure a) Q := by
  intro c b after hb
  cases hb
  exact h

theorem failure : Gives (failure : TokenReader α) Q := by
  intro c a after h
  cases h

/-- A reader gives what its last step gives, knowing what the first one gave. -/
theorem bind (hp : p.Gives Q) (hf : ∀ a, Q a → (f a).Gives R) : (p >>= f).Gives R := by
  intro c b after h
  obtain ⟨⟨a, middle⟩, hfirst, hsecond⟩ := Option.bind_eq_some_iff.1 h
  exact hf a (hp c a middle hfirst) middle b after hsecond

/-- It does not matter what was read before. -/
theorem after (p : TokenReader α) (hf : ∀ a, (f a).Gives R) : (p >>= f).Gives R :=
  bind (Q := fun _ => True) (fun _ _ _ _ => trivial) fun a _ => hf a

/-- A choice of readers gives what both of them do. -/
theorem ite {c : Prop} [Decidable c] {q : TokenReader α} (hp : p.Gives Q) (hq : q.Gives Q) : (if c then p else q).Gives Q := by
  split
  · exact hp
  · exact hq

/-- What is read only under some condition does not matter. -/
theorem passing {c : Prop} [Decidable c] {skipped : TokenReader Unit} {f : Unit → TokenReader α} (hf : (f ()).Gives Q) :
    (if c then skipped >>= f else f ()).Gives Q := ite (after skipped fun _ => hf) hf

theorem mono {S : α → Prop} (hp : p.Gives Q) (h : ∀ a, Q a → S a) : p.Gives S :=
  fun c a after ha => h a (hp c a after ha)

/-- What a reader gives does not depend on the setting. -/
theorem under (g : Setting → Setting) (hp : p.Gives Q) : (under g p).Gives Q :=
  after _ fun _ => after _ fun _ => bind hp fun _ ha => after _ fun _ => pure ha

theorem enclosed (hp : p.Gives Q) : (enclosed p).Gives Q := hp.under _

/-- A step that is repeated keeps what it keeps once. -/
theorem iterate {step : α → TokenReader (Option α)} (hstep : ∀ a, Q a → (step a).Gives fun next => ∀ b ∈ next, Q b)
    (bound : Nat) {a : α} (ha : Q a) : (iterate step bound a).Gives Q := by
  induction bound generalizing a with
  | zero => exact failure
  | succ bound ih =>
    refine bind (hstep a ha) fun next hnext => ?_
    cases next with
    | none => exact pure ha
    | some b => exact ih (hnext b rfl)

/-- What each step of a loop keeps holds in the end. -/
theorem loop {step : α → TokenReader (Option α)} (hstep : ∀ a, Q a → (step a).Gives fun next => ∀ b ∈ next, Q b) {a : α}
    (ha : Q a) : (loop step a).Gives Q := fun c => iterate hstep _ ha c

theorem none_of_loop : Gives (α := Option α) (Pure.pure none) fun next => ∀ b ∈ next, Q b := pure nofun

theorem some_of_loop {a : α} (ha : Q a) : Gives (Pure.pure (some a)) fun next => ∀ b ∈ next, Q b :=
  pure fun _ hb => Option.some.inj hb ▸ ha

/-- Each item of a list is what the reader of items gives. -/
theorem listUntil (close : String) (hp : p.Gives Q) : (listUntil close p).Gives fun items => ∀ a ∈ items, Q a := by
  unfold TokenReader.listUntil
  refine enclosed (bind (Q := fun done => ∀ a ∈ done.1, Q a) (loop ?_ nofun) ?_)
  · rintro ⟨items, open'⟩ hitems
    cases open' with
    | false => exact none_of_loop
    | true =>
      refine after _ fun _ => ite none_of_loop (bind hp fun a ha => after _ fun _ => some_of_loop ?_)
      exact List.forall_mem_cons.2 ⟨ha, hitems⟩
  · rintro ⟨items, open'⟩ hitems
    exact after _ fun _ => pure fun a ha => hitems a (List.mem_reverse.1 ha)

end Gives

/-- Every token at a cursor is proper. -/
theorem gives_peek : peek.Gives Token.IsProper := by
  intro c token after h
  cases h
  exact c.proper

/-- A name that is read consists of characters of names. -/
theorem gives_name : name.Gives Identifier.IsName := by
  refine gives_peek.bind fun token htoken => ?_
  split
  · exact .passing (.after _ fun _ => .passing (.after _ fun _ => .pure htoken))
  · exact .failure

end TokenReader

/-! ## Rules -/

namespace Rules

open TokenReader Prebake.Expr

/-- The rules that give expressions give well-named ones. -/
structure GiveNames (r : Rules) : Prop where
  expression : ∀ arrowType, (r.expression arrowType).Gives WellNamed
  operators : ∀ strength, (r.operators strength).Gives WellNamed
  unary : r.unary.Gives WellNamed

theorem forall_mem_names_append {e : Expr} (he : e.WellNamed) : ∀ n ∈ e.names ++ [], Identifier.IsName n := by
  rw [List.append_nil]
  exact he

/-- A construct that is not evaluated keeps no names. -/
theorem wellNamed_construct (kind : Construct) : (construct kind).WellNamed := List.forall_mem_nil _

/-- The names in the holes of a template are those of the expressions that were read for them. -/
theorem forall_mem_spanNames {spans : List (Expr × Option String)} {rest : List Span}
    (hrest : (spans.mapM fun (hole, text) => text.map (Span.mk hole)) = some rest)
    (hspans : ∀ span ∈ spans, span.1.WellNamed) : ∀ n ∈ spanNames rest, Identifier.IsName n := by
  induction spans generalizing rest with
  | nil =>
    cases hrest
    exact List.forall_mem_nil _
  | cons span spans ih =>
    rw [List.mapM_cons] at hrest
    obtain ⟨first, hfirst, hrest⟩ := Option.bind_eq_some_iff.1 hrest
    obtain ⟨others, hothers, heq⟩ := Option.bind_eq_some_iff.1 hrest
    obtain ⟨text, -, rfl⟩ := Option.map_eq_some_iff.1 hfirst
    cases heq
    obtain ⟨hhole, hspans⟩ := List.forall_mem_cons.1 hspans
    exact List.forall_mem_append.2 ⟨hhole, ih hothers hspans⟩

/-- The letters of a regular expression are no names. -/
theorem gives_regularExpression : regularExpression.Gives WellNamed := by
  refine .after _ fun _ => ?_
  split
  · exact .failure
  · exact .passing (.after _ fun _ => .pure (wellNamed_construct _))

/-- What stands behind `new` is dropped. -/
theorem gives_construction (r : Rules) (primary : TokenReader Expr) : (r.construction primary).Gives WellNamed := by
  refine .after _ fun _ => .ite (.after _ fun _ => .pure (wellNamed_construct _)) ?_
  refine .after _ fun _ => .after _ fun _ => .after _ fun _ => ?_
  split
  · exact .passing (.after _ fun _ => .passing (.after _ fun _ => .passing (.pure (wellNamed_construct _))))
  · exact .after _ fun _ => .passing (.after _ fun _ => .passing (.pure (wellNamed_construct _)))

/-- What stands behind `import` is dropped. -/
theorem gives_importation (r : Rules) : r.importation.Gives WellNamed := by
  refine .after _ fun _ => .ite (.after _ fun _ => .ite (.pure (wellNamed_construct _)) ?_) ?arguments
  · exact .after _ fun _ => .after _ fun _ => .passing ?arguments
  · exact .after _ fun _ => .after _ fun _ => .passing (.pure (wellNamed_construct _))

/-- What stands behind `yield` is dropped. -/
theorem gives_yielded (r : Rules) : r.yielded.Gives WellNamed := by
  have hother := Gives.pure (wellNamed_construct .other)
  refine .after _ fun _ => .ite (.after _ fun _ => .after _ fun _ => .after _ fun _ => .after _ fun _ => ?_) hother
  exact .ite (.after _ fun _ => hother) hother

/-- An operator has the names of its operands. -/
theorem wellNamed_of_combine {op : Infix} {left right e : Expr} (he : combine op left right = some e)
    (hleft : left.WellNamed) (hright : right.WellNamed) : e.WellNamed := by
  have hboth := List.forall_mem_append.2 ⟨hleft, hright⟩
  unfold combine at he
  repeat' split at he
  all_goals cases he
  all_goals exact hboth

namespace GiveNames

variable {r : Rules} (h : r.GiveNames)

include h

/-- Expressions that follow each other are well named if each of them is. -/
theorem expressions : r.expressions.Gives WellNamed :=
  (h.expression true).bind fun _ hfirst => .loop (fun _ _ => .after _ fun _ =>
    .ite (.after _ fun _ => .some_of_loop (wellNamed_construct _)) .none_of_loop) hfirst

theorem parenthesized : r.parenthesized.Gives WellNamed :=
  .after _ fun _ => h.expressions.enclosed.bind fun _ hinner => .after _ fun _ => .pure hinner

/-- An array has the names of the expressions in it. -/
theorem arrayElements : r.arrayElements.Gives WellNamed := by
  refine .enclosed (.bind (Q := fun items => ∀ n ∈ elementNames items, Identifier.IsName n) (.loop ?_ (List.forall_mem_nil _)) ?_)
  · intro items hitems
    refine .after _ fun _ => .ite .none_of_loop (.after _ fun _ => .ite (.some_of_loop hitems) ?_)
    refine .after _ fun spreads => (h.expression true).bind fun value hvalue => .after _ fun final => .passing ?_
    refine .some_of_loop ?_
    cases spreads <;> exact List.forall_mem_append.2 ⟨hvalue, hitems⟩
  · intro items hitems
    refine .after _ fun _ => .pure fun n hn => hitems n ?_
    rw [names, elementNames_eq] at hn
    rw [elementNames_eq]
    simpa using hn

/-- A key has names only if it is an expression. -/
theorem objectKey : r.objectKey.Gives fun key => ∀ n ∈ keyNames key, Identifier.IsName n := by
  refine .after _ fun token => ?_
  split
  case h_5 =>
    exact .after _ fun _ => (h.expression true).enclosed.bind fun _ hkey => .after _ fun _ => .pure hkey
  case h_6 => exact .failure
  all_goals exact .after _ fun _ => .pure (List.forall_mem_nil _)

/-- A member has the names of its key and its value, or the one name that stands for both. -/
theorem objectMember : r.objectMember.Gives fun property => ∀ n ∈ propertyNames [property], Identifier.IsName n := by
  refine .after _ fun _ => .ite ?_ (.after _ fun _ => .ite (.after _ fun _ => .after _ ?member) (.after _ ?member))
  · exact (h.expression true).bind fun _ hvalue => .after _ fun _ => .pure (forall_mem_names_append hvalue)
  · intro marks
    refine .after _ fun _ => .after _ fun _ => gives_peek.bind fun name hname => h.objectKey.bind fun key hkey => ?_
    refine .after _ fun _ => .ite (.after _ fun _ => .pure (List.forall_mem_nil _)) (.after _ fun _ => .ite ?_ ?_)
    · exact (h.expression true).bind fun value hvalue =>
        .pure (List.forall_mem_append.2 ⟨hkey, forall_mem_names_append hvalue⟩)
    · split
      · refine .passing (.after _ fun _ => .ite (.after _ fun _ => ?_) ?_)
        · exact (h.expression true).bind fun value hvalue =>
            .pure (List.forall_mem_cons.2 ⟨hname, forall_mem_names_append hvalue⟩)
        · exact .pure (List.forall_mem_singleton.2 hname)
      · exact .failure

/-- An object has the names of its members. -/
theorem objectMembers : r.objectMembers.Gives WellNamed :=
  (Gives.listUntil _ h.objectMember).bind fun properties hproperties => .pure fun n hn => by
    rw [names, propertyNames_eq] at hn
    obtain ⟨property, hproperty, hn⟩ := List.mem_flatMap.1 hn
    exact hproperties property hproperty n hn

/-! ### Templates -/

/-- What fills the holes of a template are expressions. -/
theorem templateRest : r.templateRest.Gives fun spans => ∀ span ∈ spans, span.1.WellNamed := by
  refine .bind (Q := fun done => ∀ span ∈ done.1, span.1.WellNamed) (.loop ?_ (List.forall_mem_nil _)) ?_
  · rintro ⟨spans, last⟩ hspans
    refine .ite .none_of_loop (h.expressions.enclosed.bind fun hole hhole => .after _ fun _ => .passing ?_)
    refine .after _ fun _ => ?_
    split
    · exact .failure
    · exact .after _ fun _ => .some_of_loop (List.forall_mem_cons.2 ⟨hhole, hspans⟩)
  · rintro ⟨spans, last⟩ hspans
    exact .pure fun span hspan => hspans span (List.mem_reverse.1 hspan)

/-- A template has the names of what fills its holes. -/
theorem template : r.template.Gives WellNamed := by
  refine .after _ fun _ => ?_
  split
  · refine .after _ fun _ => .ite (Gives.bind (.pure (List.forall_mem_nil _)) ?rest) (h.templateRest.bind ?rest)
    intro spans hspans
    dsimp only
    split
    · exact .pure (forall_mem_spanNames ‹_› hspans)
    · exact .failure
  · exact .failure

/-! ### Accesses and calls -/

/-- An access adds the names in its key to those of what is accessed. -/
theorem accesses (optionalAllowed : Bool) {first : Expr × Bool} (hfirst : first.1.WellNamed) :
    (r.accesses optionalAllowed first).Gives fun e => e.1.WellNamed := by
  refine .loop ?_ hfirst
  rintro ⟨e, optional⟩ he
  refine .after _ fun opens => .passing (.after _ fun _ => ?_)
  split
  · refine .passing (.after _ fun _ => .after _ fun _ => ?_)
    split
    · exact .after _ fun _ => .some_of_loop he
    · exact .after _ fun _ => .some_of_loop he
  · exact .after _ fun _ => h.expressions.enclosed.bind fun key hkey => .after _ fun _ =>
      .some_of_loop (List.forall_mem_append.2 ⟨he, hkey⟩)
  · exact .after _ fun _ => .ite .none_of_loop (.after _ fun _ => .some_of_loop he)
  · exact .passing (.after _ fun _ => .some_of_loop (wellNamed_construct _))
  · exact .ite .none_of_loop (.after _ fun _ => .some_of_loop he)
  · exact .ite .none_of_loop (.after _ fun _ => .some_of_loop he)
  · refine .after _ fun _ => .ite (.after _ fun _ => .ite ?_ (.after _ fun _ => ?_)) .none_of_loop
    · exact .after _ fun _ => .some_of_loop (wellNamed_construct _)
    · split
      · exact .after _ fun _ => .some_of_loop (wellNamed_construct _)
      · exact .some_of_loop (wellNamed_construct _)

/-- Calls among the accesses bring no names. -/
theorem accessesAndCalls {first : Expr} (hfirst : first.WellNamed) :
    (r.accessesAndCalls first).Gives fun e => e.1.WellNamed := by
  refine (h.accesses true hfirst).bind fun start hstart => .loop ?_ hstart
  rintro ⟨e, optional⟩ -
  have hcall := wellNamed_construct .call
  refine .after _ fun _ => .ite (.after _ fun _ => .passing ?_) (.after _ fun _ => .ite ?_ .none_of_loop)
  · exact .after _ fun _ => (h.accesses true hcall).bind fun _ he => .some_of_loop he
  · exact .after _ fun _ => (h.accesses true hcall).bind fun _ he => .some_of_loop he

/-! ### Operands and operators -/

/-- An operand is well named whatever it starts with, by induction on how often `new` may be repeated. -/
theorem primary (bound : Nat) : (r.primary bound).Gives WellNamed := by
  cases bound with
  | zero => exact .failure
  | succ bound =>
    refine .after _ fun _ => ?_
    split
    · exact .after _ fun _ => .pure (List.forall_mem_nil _)
    · exact .after _ fun _ => .pure (List.forall_mem_nil _)
    · exact .after _ fun _ => .pure (wellNamed_construct _)
    · exact h.template
    · exact h.parenthesized
    · exact .after _ fun _ => h.arrayElements
    · exact .after _ fun _ => h.objectMembers
    · exact gives_regularExpression
    · exact gives_regularExpression
    · exact .after _ fun _ => .after _ fun _ => .pure (wellNamed_construct _)
    · exact .after _ fun _ => .after _ fun _ => .after _ fun _ => .pure (wellNamed_construct _)
    · refine .after _ fun _ => .passing ?_
      split
      · exact .after _ fun _ => .pure (List.forall_mem_nil _)
      · exact .after _ fun _ => .pure (List.forall_mem_nil _)
      · exact .after _ fun _ => .pure (List.forall_mem_nil _)
      · exact .after _ fun _ => .after _ fun _ => .pure (wellNamed_construct _)
      · exact .after _ fun _ => .after _ fun _ => .pure (wellNamed_construct _)
      · exact .after _ fun _ => r.gives_construction _
      · exact .after _ fun _ => .pure (wellNamed_construct _)
      · exact .after _ fun _ => .after _ fun _ => .passing (.pure (wellNamed_construct _))
      · exact .after _ fun _ => r.gives_importation
      · exact gives_name.bind fun n hn => .pure (List.forall_mem_singleton.2 hn)
    · exact gives_name.bind fun n hn => .pure (List.forall_mem_singleton.2 hn)
    · exact .failure

/-- A chain has the names of its accesses. -/
theorem leftHandSide : r.leftHandSide.Gives WellNamed := by
  refine .after _ fun _ => (h.primary _).bind fun first hfirst => (h.accessesAndCalls hfirst).bind fun e he => .pure ?_
  split <;> exact he

/-- To increase or to decrease an operand brings no names. -/
theorem update : r.update.Gives WellNamed := by
  refine .after _ fun _ => .ite (.after _ fun _ => .after _ fun _ => .passing (.pure (wellNamed_construct _))) ?_
  refine h.leftHandSide.bind fun e he => .after _ fun _ => .after _ fun _ => .ite ?_ (.pure he)
  exact .passing (.after _ fun _ => .pure (wellNamed_construct _))

/-- An operator in front of an operand brings none either. -/
theorem operand : r.operand.Gives WellNamed := by
  refine .after _ fun _ => ?_
  split
  · exact .after _ fun _ => h.unary.bind fun e he => .pure he
  · refine .after _ fun _ => .ite (.after _ fun _ => .ite ?_ (.after _ fun _ => .passing h.update)) h.update
    exact .after _ fun _ => .after _ fun _ => .pure (wellNamed_construct _)

/-- Operators between operands join their names. -/
theorem operatorsAbove (strength : Nat) : (r.operatorsAbove strength).Gives WellNamed := by
  refine .after _ fun _ => .ite ?_ (h.operand.bind ?rest)
  · refine .after _ fun _ => .after _ fun _ => .passing (Gives.bind (.pure (wellNamed_construct _)) ?rest)
  · intro first hfirst
    refine .loop (fun left hleft => .after _ fun _ => .after _ fun _ => ?_) hfirst
    split
    · exact .none_of_loop
    · refine .ite .none_of_loop (.after _ fun _ => ?_)
      split
      · exact .after _ fun _ => .some_of_loop hleft
      · refine (h.operators _).bind fun right hright => ?_
        split
        · exact .some_of_loop (wellNamed_of_combine ‹_› hleft hright)
        · exact .failure

/-- A choice has the names of its three parts, and an assignment those of its two sides. -/
theorem assignment (arrowType : Bool) : (r.assignment arrowType).Gives WellNamed := by
  refine .after _ fun _ => .ite (.after _ fun _ => .ite ?_ (.after _ fun _ => .passing ?otherwise)) ?otherwise
  · exact .after _ fun _ => r.gives_yielded
  refine .after _ fun _ => .ite (.pure (wellNamed_construct _)) ?_
  refine (h.operators 0).bind fun left hleft => .after _ fun _ => ?_
  split
  · exact .after _ fun _ => .after _ fun _ => (h.expression _).bind fun value hvalue =>
      .pure (List.forall_mem_append.2 ⟨hleft, hvalue⟩)
  · refine .after _ fun _ => (h.expression _).enclosed.bind fun yes hyes => .after _ fun _ => ?_
    exact (h.expression _).bind fun no hno =>
      .pure (List.forall_mem_append.2 ⟨hleft, List.forall_mem_append.2 ⟨hyes, hno⟩⟩)
  · refine .ite (.passing (.after _ fun _ => ?_)) (.pure hleft)
    exact (h.expression _).bind fun value hvalue => .pure (List.forall_mem_append.2 ⟨hleft, hvalue⟩)
  · exact .pure hleft

/-- Rules whose expressions are well named have well named expressions at the next depth of nesting. -/
theorem next : r.next.GiveNames where
  expression := h.assignment
  operators := h.operatorsAbove
  unary := h.operand

end GiveNames

/-- The rules for any depth of nesting have well named expressions, by induction on the depth. -/
theorem giveNames_ofDepth (depth : Nat) : (ofDepth depth).GiveNames := by
  induction depth with
  | zero => exact ⟨fun _ => .failure, fun _ => .failure, .failure⟩
  | succ depth ih => exact ih.next

end Rules

/-- Every name in an expression that has been read consists of characters of names. -/
theorem Expr.isName_of_read? {s : List Char} {e : Expr} (h : read? s = some e) : ∀ n ∈ e.names, Identifier.IsName n := by
  obtain ⟨⟨found, after⟩, hread, h⟩ := Option.bind_eq_some_iff.1 h
  dsimp only at h
  split at h
  · cases h
  · cases h
    exact (Rules.giveNames_ofDepth _).expressions _ _ _ hread

end Prebake
