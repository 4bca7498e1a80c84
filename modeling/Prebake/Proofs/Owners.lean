import Mathlib.Data.Set.Function
import Prebake.Proofs.Evaluation
import Prebake.Proofs.Expr.Names
import Prebake.Proofs.Rendering

/-!
# Owners are told apart and nothing else

The owner of a layer shows only in the marks of bindings under evaluation, and a mark is the owner, the sign `#` and a name.
An owner may hold that sign and a name cannot, so marks of different bindings differ (`ownerMark_injective`). So an evaluation
gives the same with other owners, as long as different owners stay different (`Given.eval_relabel`), and an attempt gives the
same but for the child that it may blame (`Primitive.attempt_relabel`).
-/

namespace Prebake

/-! ## Expressions -/

namespace Expr

variable {f g : String → Evaluated Value}

mutual

/-- The value of an expression depends on the values of the names in it and on nothing else. -/
theorem eval_congr : ∀ e : Expr, (∀ n ∈ e.names, f n = g n) → e.eval f = e.eval g
  | .null, _ | .bool _, _ | .number _, _ | .string _, _ | .privateMember _, _ | .assign .., _ | .construct _, _ => by
    simp only [eval]
  | .name n, h => by
    simp only [eval]
    exact h n List.mem_cons_self
  | .paren inner, h | .typed inner, h | .nonNull inner, h => by
    simp only [eval]
    exact eval_congr inner h
  | .template head rest, h => by
    simp only [eval]
    rw [evalSpans_congr rest h]
  | .array elements, h => by
    simp only [eval]
    rw [evalElements_congr elements h]
  | .object properties, h => by
    simp only [eval]
    rw [evalProperties_congr [] properties h]
  | .member e key optional, h => by
    simp only [eval]
    rw [eval_congr e h]
  | .index e key optional, h => by
    obtain ⟨he, hkey⟩ := List.forall_mem_append.1 h
    simp only [eval]
    rw [eval_congr e he, eval_congr key hkey]
  -- a chain evaluates its accesses, and around anything else it does not look at names
  | .chain accesses, h => by
    have haccesses := eval_congr accesses h
    cases accesses with
    | member object key optional => simpa only [eval] using haccesses
    | index object key optional => simpa only [eval] using haccesses
    | _ => simp only [eval]
  | .unary op operand, h => by
    simp only [eval]
    rw [eval_congr operand h]
  | .binary op left right, h | .logical op left right, h => by
    obtain ⟨hleft, hright⟩ := List.forall_mem_append.1 h
    simp only [eval]
    rw [eval_congr left hleft, eval_congr right hright]
  | .conditional test yes no, h => by
    obtain ⟨htest, hbranches⟩ := List.forall_mem_append.1 h
    obtain ⟨hyes, hno⟩ := List.forall_mem_append.1 hbranches
    simp only [eval]
    rw [eval_congr test htest, eval_congr yes hyes, eval_congr no hno]

/-- The spans of a template depend on the names in them only. -/
theorem evalSpans_congr : ∀ spans : List Span, (∀ n ∈ spanNames spans, f n = g n) → evalSpans f spans = evalSpans g spans
  | [], _ => rfl
  | .mk hole text :: rest, h => by
    obtain ⟨hhole, hrest⟩ := List.forall_mem_append.1 h
    simp only [evalSpans]
    rw [eval_congr hole hhole, evalSpans_congr rest hrest]

/-- The elements of an array depend on the names in them only. -/
theorem evalElements_congr : ∀ elements : List Element, (∀ n ∈ elementNames elements, f n = g n) →
    evalElements f elements = evalElements g elements
  | [], _ | .spread .. :: _, _ => rfl
  | .item e :: rest, h => by
    obtain ⟨he, hrest⟩ := List.forall_mem_append.1 h
    simp only [evalElements]
    rw [eval_congr e he, evalElements_congr rest hrest]
  | .blank :: rest, h => by
    simp only [evalElements]
    rw [evalElements_congr rest h]

/-- The properties of an object depend on the names in them only. -/
theorem evalProperties_congr (fields : List (String × Value)) : ∀ properties : List Property,
    (∀ n ∈ propertyNames properties, f n = g n) → evalProperties f fields properties = evalProperties g fields properties
  | [], _ | .shorthandDefault _ _ :: _, _ | .methodOrAccessor :: _, _ | .spread .. :: _, _ => rfl
  | .entry key e :: rest, h => by
    obtain ⟨hkey, hvalues⟩ := List.forall_mem_append.1 h
    obtain ⟨he, hrest⟩ := List.forall_mem_append.1 hvalues
    simp only [evalProperties]
    rw [evalKey_congr key hkey, eval_congr e he]
    exact congrArg _ (funext fun name => congrArg _ (funext fun value => evalProperties_congr _ rest hrest))
  | .shorthand n :: rest, h => by
    obtain ⟨hn, hrest⟩ := List.forall_mem_cons.1 h
    simp only [evalProperties]
    rw [hn]
    exact congrArg _ (funext fun value => evalProperties_congr _ rest hrest)

/-- A key depends on the names in it only. -/
theorem evalKey_congr : ∀ key : Key, (∀ n ∈ keyNames key, f n = g n) → evalKey f key = evalKey g key
  | .text _, _ | .number _, _ | .unsupported, _ => rfl
  | .computed e, h => by
    simp only [evalKey]
    rw [eval_congr e h]

end

end Expr

/-- Whatever is given asks for values of names only, and a name consists of characters of names. -/
theorem Given.evalWith_congr {f g : String → Evaluated Value} (h : ∀ n, Identifier.IsName n → f n = g n) (given : Given) :
    given.evalWith f = given.evalWith g := by
  have hsource : ∀ source, evalSource f source = evalSource g source := by
    intro source
    simp only [evalSource]
    split
    · rfl
    · split
      · rename_i e hread
        exact e.eval_congr fun n hn => h n (Expr.isName_of_read? hread n hn)
      · rfl
  cases given with
  | literal value => rfl
  | slot name => rfl
  | expression source => exact hsource source
  | unclassified source => exact hsource source

/-! ## Marks -/

/-- The sign between an owner and a name is no character of names. -/
theorem Identifier.IsName.not_mem {name : String} (h : IsName name) : '#' ∉ name.toList := by
  intro hin
  have hcontinue := h _ hin
  revert hcontinue
  decide

/-- The mark of the binding of a name by an owner. -/
def ownerMark (binding : String × String) : String := binding.1 ++ "#" ++ binding.2

/-- Since names do not hold the sign between them, a mark tells its owner and its name. -/
theorem ownerMark_injective {a b : String × String} (ha : Identifier.IsName a.2) (hb : Identifier.IsName b.2)
    (h : ownerMark a = ownerMark b) : a = b := by
  have hchars : a.1.toList ++ '#' :: a.2.toList = b.1.toList ++ '#' :: b.2.toList := by
    simpa [ownerMark] using congrArg String.toList h
  have hsame : a.1.toList = b.1.toList ∧ a.2.toList = b.2.toList := by
    rcases List.append_eq_append_iff.1 hchars with ⟨between, hlonger, hrest⟩ | ⟨between, hlonger, hrest⟩
    · cases between with
      | nil => exact ⟨by simpa using hlonger.symm, (List.cons.inj hrest).2⟩
      | cons c between => exact absurd ((List.cons.inj hrest).2 ▸ by simp) ha.not_mem
    · cases between with
      | nil => exact ⟨by simpa using hlonger, (List.cons.inj hrest).2.symm⟩
      | cons c between => exact absurd ((List.cons.inj hrest).2 ▸ by simp) hb.not_mem
  exact Prod.ext (String.toList_inj.1 hsame.1) (String.toList_inj.1 hsame.2)

variable {r : String → String} {ids : Set String}

/-- A mark is among others under other owners if it was among them before. -/
theorem contains_relabel (hinj : ids.InjOn r) {active : List (String × String)} {owner name : String}
    (hactive : ∀ binding ∈ active, binding.1 ∈ ids ∧ Identifier.IsName binding.2) (howner : owner ∈ ids)
    (hname : Identifier.IsName name) :
    ((active.map (Prod.map r id)).map ownerMark).contains (ownerMark (r owner, name)) = true ↔
      (active.map ownerMark).contains (ownerMark (owner, name)) = true := by
  rw [List.contains_iff_mem, List.contains_iff_mem, List.map_map]
  constructor
  · intro hin
    obtain ⟨other, hother, hsame⟩ := List.mem_map.1 hin
    obtain ⟨hid, hother'⟩ := hactive other hother
    have hpair : Prod.map r id other = (r owner, name) := ownerMark_injective hother' hname hsame
    obtain ⟨howners, hnames⟩ := Prod.mk.inj hpair
    exact List.mem_map.2 ⟨other, hother, congrArg ownerMark (Prod.ext (hinj hid howner howners) hnames)⟩
  · intro hin
    obtain ⟨other, hother, hsame⟩ := List.mem_map.1 hin
    cases ownerMark_injective (hactive other hother).2 hname hsame
    exact List.mem_map.2 ⟨(owner, name), hother, rfl⟩

/-! ## Scopes -/

/-- The layer with another name for its owner. -/
def Layer.relabel (r : String → String) (layer : Layer) : Layer := { layer with owner := r layer.owner }

/-- The scope with other names for its owners. -/
def Scope.relabel (r : String → String) (scope : Scope) : Scope := scope.map (Layer.relabel r)

namespace Scope

/-- With other owners a binding is found where it was. -/
theorem find?_relabel (scope : Scope) (name : String) : (scope.relabel r).find? name = scope.find? name := by
  induction scope with
  | nil => rfl
  | cons layer outer ih =>
    rw [relabel, List.map_cons, find?, find?, ← relabel, ih]
    rfl

theorem fromLayer_relabel (scope : Scope) (index : Nat) :
    (scope.relabel r).fromLayer index = (scope.fromLayer index).relabel r := (List.map_drop ..).symm

theorem take_relabel (scope : Scope) (reach : Nat) : (scope.relabel r).take reach = Scope.relabel r (scope.take reach) :=
  (List.map_take ..).symm

/-- The bindings of a layer are known by its owner and their names. -/
theorem exists_bindingMark {scope : Scope} {index : Nat} (h : index < scope.length) :
    ∃ layer ∈ scope, ∀ name, scope.bindingMark index name = ownerMark (layer.owner, name) ∧
      (scope.relabel r).bindingMark index name = ownerMark (r layer.owner, name) := by
  have hlayer : scope[index]? = some scope[index] := List.getElem?_eq_getElem h
  refine ⟨scope[index], List.getElem_mem h, fun name => ⟨?_, ?_⟩⟩
  · rw [bindingMark, owner?, hlayer]
    rfl
  · rw [bindingMark, owner?, relabel, List.getElem?_map, hlayer]
    rfl

/-- The value of a name does not depend on what the owners are called. The marks of the bindings under evaluation change with
the owners, and different marks stay different. -/
theorem valueOfName_relabel (hinj : ids.InjOn r) (room : Nat) {active : List (String × String)} {scope : Scope} {name : String}
    (hactive : ∀ binding ∈ active, binding.1 ∈ ids ∧ Identifier.IsName binding.2)
    (hscope : ∀ layer ∈ scope, layer.owner ∈ ids) (hname : Identifier.IsName name) :
    valueOfName room ((active.map (Prod.map r id)).map ownerMark) (scope.relabel r) name =
      valueOfName room (active.map ownerMark) scope name := by
  induction room generalizing active scope name with
  | zero =>
    cases hfound : scope.find? name with
    | none => simp only [valueOfName, find?_relabel, hfound]
    | some found =>
      obtain ⟨layer, hlayer, hmark⟩ := exists_bindingMark (r := r) (lt_length_of_find? hfound)
      simp only [valueOfName, find?_relabel, hfound, (hmark name).1, (hmark name).2]
      exact if_congr (contains_relabel hinj hactive (hscope layer hlayer) hname) rfl rfl
  | succ room ih =>
    cases hfound : scope.find? name with
    | none => simp only [valueOfName, find?_relabel, hfound]
    | some found =>
      obtain ⟨index, given⟩ := found
      obtain ⟨layer, hlayer, hmark⟩ := exists_bindingMark (r := r) (lt_length_of_find? hfound)
      have howner := hscope layer hlayer
      -- the binding is under evaluation under both marks, so the induction goes on with one more pair
      have hstep : given.evalWith (valueOfName room
            (ownerMark (r layer.owner, name) :: (active.map (Prod.map r id)).map ownerMark)
            ((scope.fromLayer index).relabel r)) =
          given.evalWith (valueOfName room (ownerMark (layer.owner, name) :: active.map ownerMark)
            (scope.fromLayer index)) := by
        refine given.evalWith_congr fun n hn => ?_
        exact @ih ((layer.owner, name) :: active) _ _ (List.forall_mem_cons.2 ⟨⟨howner, hname⟩, hactive⟩)
          (fun other hother => hscope other (List.mem_of_mem_drop hother)) hn
      simp only [valueOfName, find?_relabel, hfound, (hmark name).1, (hmark name).2, fromLayer_relabel, hstep]
      exact if_congr (contains_relabel hinj hactive howner hname) rfl rfl

end Scope

/-- What is given evaluates the same whatever the owners are called, as long as they are told apart. -/
theorem Given.eval_relabel (hinj : ids.InjOn r) {scope : Scope} (hscope : ∀ layer ∈ scope, layer.owner ∈ ids)
    (given : Given) : given.eval (scope.relabel r) = given.eval scope :=
  given.evalWith_congr fun _ hn => Scope.valueOfName_relabel hinj maxNesting (List.forall_mem_nil _) hscope hn

/-! ## Attempts -/

/-- The reason with another name for the child that it may blame. -/
def Reason.relabel (r : String → String) : Reason → Reason
  | deferredChild child => deferredChild (r child)
  | other => other

/-- The outcome with another name for the child that may be to blame. -/
def Attempt.relabel (r : String → String) (outcome : Attempt) : Attempt := outcome.mapError (Reason.relabel r)

/-- The primitive with another id, and other ids for its parent and its children. -/
def Primitive.relabel (r : String → String) (p : Primitive) : Primitive :=
  { p with id := r p.id, parent? := p.parent?.map r, children := p.children.map r }

/-- Whether an attempt is open does not depend on which child it blames. -/
theorem Attempt.isOpen_relabel (outcome : Attempt) : (outcome.relabel r).isOpen = outcome.isOpen := by
  cases outcome with
  | ok rendered => rfl
  | error reason => cases reason <;> rfl

section

variable (hinj : ids.InjOn r) {scope : Scope} (hscope : ∀ layer ∈ scope, layer.owner ∈ ids)

include hinj hscope

/-- What is written for properties does not show owners. -/
theorem Draft.addProps_relabel (draft : Draft) (props : Givens) :
    draft.addProps (scope.relabel r) props = draft.addProps scope props := by
  induction props generalizing draft with
  | nil => rfl
  | cons entry props ih =>
    obtain ⟨prop, given⟩ := entry
    have hprop : draft.addProp (scope.relabel r) prop given = draft.addProp scope prop given := by
      rw [addProp, addProp, given.eval_relabel hinj hscope]
    rw [addProps, addProps, hprop]
    exact congrArg _ (funext ih)

namespace Primitive

/-- The markup of a primitive does not show owners. -/
theorem render_relabel (p : Primitive) (children : List Rendered) :
    (p.relabel r).render children (scope.relabel r) = p.render children scope := by
  have hprops := Draft.addProps_relabel hinj hscope (Draft.begin p.tag) p.props
  exact congrArg (· >>= fun draft => return (children.foldl Draft.addChild draft).rendered p.tag) hprops

omit hinj hscope in
/-- The first child without markup is the same one under its other name. -/
theorem childMarkup_relabel (ids : List String) (children : List (Option Rendered)) :
    childMarkup ((ids.map r).zip children) = (childMarkup (ids.zip children)).mapError (Reason.relabel r) := by
  induction ids generalizing children with
  | nil => rfl
  | cons id ids ih =>
    cases children with
    | nil => rfl
    | cons child children =>
      rw [List.map_cons, List.zip_cons_cons, List.zip_cons_cons]
      cases child with
      | none => rfl
      | some rendered =>
        rw [childMarkup, childMarkup, ih]
        cases childMarkup (ids.zip children) <;> rfl

/-- An attempt under other ids turns out the same, but for the child that it may blame. -/
theorem attempt_relabel (p : Primitive) (children : List (Option Rendered)) :
    (p.relabel r).attempt children (scope.relabel r) = (p.attempt children scope).relabel r := by
  have hchildren : (p.relabel r).children = p.children.map r := rfl
  rw [attempt, attempt, hchildren, childMarkup_relabel]
  cases childMarkup (p.children.zip children) with
  | error reason => rfl
  | ok markup =>
    have hrender := p.render_relabel hinj hscope markup
    refine hrender.trans ?_
    -- rendering by itself blames no child
    show p.render markup scope = (p.render markup scope).relabel r
    cases hresult : p.render markup scope with
    | ok rendered => rfl
    | error reason =>
      cases reason with
      | deferredChild child => exact absurd hresult render_ne_deferredChild
      | _ => rfl

end Primitive

end

end Prebake
