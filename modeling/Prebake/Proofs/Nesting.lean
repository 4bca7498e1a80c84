import Mathlib.Data.List.Infix
import Mathlib.Order.Nat
import Prebake.Proofs.Errors
import Prebake.Proofs.Owners

/-!
# Bindings within bindings

A binding is evaluated in the scope from its own layer, and it may ask for further bindings on the way, its own among them.
`Scope.approximate` follows this recursion down to a depth under a rule that may refuse a binding, and an evaluation has ended
within the depth if it is all the same what would come next (`Given.EndsWithin`). With the rule that refuses nothing this is the
meaning of scopes, and an evaluation may fail to end; the rule of `Scope.valueOf` refuses a binding that is needed for its own
value, and a binding below too many others.

The refusals are exact (`Given.eval_exact`): a binding is refused as needed for its own value only where the evaluation without
any rule would not end, and whatever ends without a rule in the depth that is allowed is evaluated to the same outcome.
-/

namespace Prebake

/-- What stands in the way of a binding with a mark and a name while the bindings with the marks `active` are under
evaluation. -/
abbrev NestingRule : Type := (active : List String) → (mark name : String) → Option Obstacle

namespace NestingRule

/-- Nothing is refused. -/
def free : NestingRule := fun _ _ _ => none

/-- A binding is refused below itself and below as many bindings as may be under evaluation. -/
def guarded : NestingRule := fun active mark name =>
  if active.contains mark then some (.selfReference name)
  else if maxNesting ≤ active.length then some (.nestedTooDeeply name)
  else none

end NestingRule

/-- The value of a name under a rule, where `beyond` stands for the values of the bindings below `depth` others. -/
def Scope.approximate (rule : NestingRule) (beyond : Evaluated Value) : Nat → List String → Scope → String → Evaluated Value
  | depth, active, scope, name =>
    match scope.find? name with
    | none => unboundValue name
    | some (index, given) =>
      let mark := scope.bindingMark index name
      match rule active mark name with
      | some obstacle => notComputable obstacle
      | none =>
        match depth with
        | 0 => beyond
        | depth + 1 => given.evalWith (approximate rule beyond depth (mark :: active) (scope.fromLayer index))

/-- The evaluation of what is given ends with an outcome and never has more than `depth` bindings under evaluation. Since an
error passes through everything that asks for it, nothing below was asked for if the outcome does not depend on it. -/
def Given.EndsWithin (rule : NestingRule) (depth : Nat) (scope : Scope) (given : Given) (outcome : Evaluated Value) : Prop :=
  ∀ beyond, given.evalWith (scope.approximate rule beyond depth []) = outcome

/-! ## Without a rule -/

/-- The value of a name by the meaning of scopes alone, down to a depth. -/
def Scope.lexical (beyond : Evaluated Value) (depth : Nat) (scope : Scope) : String → Evaluated Value :=
  scope.approximate .free beyond depth []

namespace Scope

variable {beyond : Evaluated Value} {depth deeper room : Nat} {active : List String} {base scope other : Scope}
  {name : String} {index : Nat} {given : Given} {found : Nat × Given}

/-- Where nothing is refused it does not matter which bindings are under evaluation. -/
theorem approximate_free (active : List String) (scope : Scope) (name : String) :
    scope.approximate .free beyond depth active name = scope.lexical beyond depth name := by
  induction depth generalizing active scope name with
  | zero =>
    rw [lexical, approximate, approximate]
    rfl
  | succ depth ih =>
    rw [lexical, approximate, approximate]
    cases scope.find? name with
    | none => rfl
    | some found =>
      have hinner : ∀ active, Scope.approximate .free beyond depth active (scope.fromLayer found.1) =
          (scope.fromLayer found.1).lexical beyond depth := fun active => funext fun n => ih active _ n
      show found.2.evalWith _ = found.2.evalWith _
      rw [hinner, hinner]

/-- A name that nothing binds has the value that it has by itself, if it has one. -/
theorem lexical_of_unbound (h : scope.find? name = none) : scope.lexical beyond depth name = unboundValue name := by
  rw [lexical, approximate, h]

theorem lexical_zero (h : scope.find? name = some found) : scope.lexical beyond 0 name = beyond := by
  rw [lexical, approximate, h]
  rfl

/-- A binding is evaluated in the scope from its own layer, one step deeper. -/
theorem lexical_succ (h : scope.find? name = some (index, given)) :
    scope.lexical beyond (depth + 1) name = given.evalWith ((scope.fromLayer index).lexical beyond depth) := by
  rw [lexical, approximate, h]
  exact congrArg given.evalWith (funext fun n => approximate_free _ _ n)

/-- Without a rule errors are plain, but for one that stands for what comes beyond the depth. -/
theorem raises_lexical (scope : Scope) (name : String) :
    Raises (EvalError.IsPlainOr fun e => beyond = .error e) (scope.lexical beyond depth name) := by
  induction depth generalizing scope name with
  | zero =>
    cases hfound : scope.find? name with
    | none =>
      rw [lexical_of_unbound hfound]
      exact raises_unboundValue name
    | some found =>
      rw [lexical_zero hfound]
      exact fun _ => Or.inr
  | succ depth ih =>
    cases hfound : scope.find? name with
    | none =>
      rw [lexical_of_unbound hfound]
      exact raises_unboundValue name
    | some found =>
      rw [lexical_succ hfound]
      exact Given.raises_evalWith (ih _) _

/-- An error with which no evaluation ends of itself. It marks where an evaluation was cut off. -/
def cutOff : EvalError := .runtimeOnly ""

/-- No expression raises the error of being cut off by itself. -/
theorem not_isPlain_cutOff : ¬cutOff.IsPlain := by
  show "" ∉ runtimeNames
  decide

/-- The value of a name, or the mark of an evaluation that was cut off. -/
def reached (depth : Nat) (scope : Scope) : String → Evaluated Value := scope.lexical (.error cutOff) depth

/-- Whether an evaluation was cut off. -/
def isCutOff (e : EvalError) : Bool := decide (e = cutOff)

/-- What was not cut off stays the same when less is cut off. -/
theorem eq_of_widens {narrow wide : Evaluated Value} (h : Widens isCutOff narrow wide) (hne : narrow ≠ .error cutOff) :
    wide = narrow := by
  rcases h with ⟨e, rfl, he⟩ | heq
  · exact absurd (congrArg _ (of_decide_eq_true he)) hne
  · exact heq

/-- What has been reached stands, however much deeper the evaluation may go. -/
theorem widens_lexical (beyond : Evaluated Value) (h : depth ≤ deeper) (scope : Scope) (name : String) :
    Widens isCutOff (scope.reached depth name) (scope.lexical beyond deeper name) := by
  induction depth generalizing deeper scope name with
  | zero =>
    cases hfound : scope.find? name with
    | none =>
      rw [reached, lexical_of_unbound hfound, lexical_of_unbound hfound]
      exact .refl _
    | some found => exact Or.inl ⟨cutOff, lexical_zero hfound, rfl⟩
  | succ depth ih =>
    obtain ⟨deeper, rfl⟩ := Nat.exists_eq_add_of_le' (Nat.le_of_add_left_le h)
    cases hfound : scope.find? name with
    | none =>
      rw [reached, lexical_of_unbound hfound, lexical_of_unbound hfound]
      exact .refl _
    | some found =>
      rw [reached, lexical_succ hfound, lexical_succ hfound]
      exact found.2.widens_evalWith fun n => ih (Nat.le_of_succ_le_succ h) _ n

/-! ## Bindings under evaluation -/

/-- A binding that was found is in the first layer of the scope in which it is evaluated. -/
theorem exists_layer_of_find? (h : scope.find? name = some (index, given)) :
    ∃ layer outer, scope.fromLayer index = layer :: outer ∧ Scope.find? (layer :: outer) name = some (0, given) ∧
      scope.bindingMark index name = ownerMark (layer.owner, name) := by
  induction scope generalizing index with
  | nil => cases h
  | cons layer outer ih =>
    have hscope := h
    rw [find?] at h
    cases hlookup : layer.bindings.lookup name with
    | some bound =>
      rw [hlookup] at h
      cases h
      exact ⟨layer, outer, rfl, hscope, rfl⟩
    | none =>
      rw [hlookup] at h
      obtain ⟨⟨inner, bound⟩, hinner, heq⟩ := Option.map_eq_some_iff.1 h
      cases heq
      exact ih hinner

/-- Where owners differ, an owner tells the scope that starts with its layer. -/
theorem eq_of_suffix {layer layer' : Layer} {outer outer' : Scope} (hbase : base.owners.Nodup) (h : layer :: outer <:+ base)
    (h' : layer' :: outer' <:+ base) (howner : layer.owner = layer'.owner) : layer :: outer = layer' :: outer' := by
  have hfirst : ∀ {layer layer' : Layer} {outer outer' : Scope}, layer.owner = layer'.owner →
      layer' :: outer' <:+ base → layer :: outer <:+ layer' :: outer' → layer :: outer = layer' :: outer' := by
    intro layer layer' outer outer' howner h' hsuffix
    rcases List.suffix_cons_iff.1 hsuffix with heq | hinner
    · exact heq
    · have hnodup : (Scope.owners (layer' :: outer')).Nodup := hbase.sublist (h'.sublist.map _)
      have hmem : layer.owner ∈ outer'.owners := List.mem_map_of_mem (hinner.subset List.mem_cons_self)
      rw [howner] at hmem
      exact absurd hmem (List.nodup_cons.1 hnodup).1
  rcases List.suffix_or_suffix_of_suffix h h' with hsuffix | hsuffix
  · exact hfirst howner h' hsuffix
  · exact (hfirst howner.symm h hsuffix).symm

/-- A binding in a layer of a scope. -/
structure Site where
  layer : Layer
  outer : Scope
  name : String

/-- The mark of a binding under evaluation. -/
def Site.mark (site : Site) : String := ownerMark (site.layer.owner, site.name)

/-- A binding in a layer of a scope whose evaluation goes below a depth. -/
structure Pending (base : Scope) (depth : Nat) (site : Site) : Prop where
  suffix : site.layer :: site.outer <:+ base
  isName : Identifier.IsName site.name
  cut : Scope.reached depth (site.layer :: site.outer) site.name = .error cutOff

/-- What goes below a depth goes below any that is less. -/
theorem Pending.anti {site : Site} (h : Pending base deeper site) (hle : depth ≤ deeper) : Pending base depth site where
  suffix := h.suffix
  isName := h.isName
  cut := by
    by_contra hne
    have hdeeper := eq_of_widens (widens_lexical (.error cutOff) hle _ site.name) hne
    exact hne (hdeeper.symm.trans h.cut)

/-- A binding whose evaluation ends within a depth is none of those that go below it. -/
theorem not_contains_of_pending (hbase : base.owners.Nodup) (hscope : scope <:+ base) (hname : Identifier.IsName name)
    (hfound : scope.find? name = some (index, given)) (hreached : scope.reached depth name ≠ .error cutOff)
    {sites : List Site} (hsites : ∀ site ∈ sites, Pending base depth site) :
    (sites.map Site.mark).contains (scope.bindingMark index name) = false := by
  obtain ⟨layer, outer, hlayer, hfirst, hmark⟩ := exists_layer_of_find? hfound
  rw [List.contains_eq_mem, decide_eq_false_iff_not, hmark]
  intro hin
  obtain ⟨site, hsite, hsame⟩ := List.mem_map.1 hin
  have hpending := hsites site hsite
  obtain ⟨howner, hnames⟩ := Prod.mk.inj (ownerMark_injective hpending.isName hname hsame)
  have hinner : layer :: outer <:+ base := hlayer ▸ (List.drop_suffix index scope).trans hscope
  have hcut : Scope.reached depth (layer :: outer) name = .error cutOff := by
    rw [← eq_of_suffix hbase hpending.suffix hinner howner, ← hnames]
    exact hpending.cut
  refine hreached (Eq.trans ?_ hcut)
  cases depth with
  | zero => exact (lexical_zero hfound).trans (lexical_zero hfirst).symm
  | succ depth =>
    rw [reached, reached, lexical_succ hfound, lexical_succ hfirst, hlayer]
    rfl

end Scope

/-- For what is given it is enough that the values of proper names stand. -/
theorem Given.widens_evalWith_of_isName {isOpen : EvalError → Bool} {narrow wide : String → Evaluated Value}
    (h : ∀ n, Identifier.IsName n → Widens isOpen (narrow n) (wide n)) (given : Given) :
    Widens isOpen (given.evalWith narrow) (given.evalWith wide) := by
  classical
  have hwide : given.evalWith wide = given.evalWith fun n => if Identifier.IsName n then wide n else narrow n :=
    given.evalWith_congr fun n hn => (if_pos hn).symm
  rw [hwide]
  refine given.widens_evalWith fun n => ?_
  split
  · exact h n ‹_›
  · exact .refl _

namespace Scope

variable {beyond : Evaluated Value} {depth room more : Nat} {active : List String} {base scope : Scope} {name : String}
  {given : Given}

/-- There is a least depth within which an evaluation ends that ends at all. -/
theorem exists_least (h : given.evalWith (scope.reached depth) ≠ .error cutOff) :
    ∃ least ≤ depth, given.evalWith (scope.reached least) = given.evalWith (scope.reached depth) ∧
      ∀ less < least, given.evalWith (scope.reached less) = .error cutOff := by
  classical
  have hsome : ∃ depth, given.evalWith (scope.reached depth) ≠ .error cutOff := ⟨depth, h⟩
  have hle : Nat.find hsome ≤ depth := Nat.find_min' hsome h
  refine ⟨Nat.find hsome, hle, ?_, fun less hless => not_not.1 (Nat.find_min hsome hless)⟩
  exact (eq_of_widens (given.widens_evalWith fun n => widens_lexical _ hle scope n) (Nat.find_spec hsome)).symm

/-- A binding needs a greater depth than what is given for it. -/
theorem reached_of_forall_lt {layer : Layer} {outer : Scope} {least : Nat}
    (hfirst : Scope.find? (layer :: outer) name = some (0, given))
    (hless : ∀ less < least, given.evalWith (Scope.reached less (layer :: outer)) = .error cutOff) :
    Scope.reached least (layer :: outer) name = .error cutOff := by
  cases least with
  | zero => exact lexical_zero hfirst
  | succ least => exact (lexical_succ hfirst).trans (hless least (Nat.lt_succ_self least))

/-- The guard does not stop an evaluation that ends. A binding under evaluation needs a greater depth than all that it asks for,
so while the depth that is left only just suffices, none of those under evaluation can be asked for again. -/
theorem widens_valueOfName_of_pending (hbase : base.owners.Nodup) (hroom : depth ≤ room) (hscope : scope <:+ base)
    (hname : Identifier.IsName name) {sites : List Site} (hsites : ∀ site ∈ sites, Pending base depth site) :
    Widens isCutOff (scope.reached depth name) (valueOfName room (sites.map Site.mark) scope name) := by
  induction depth using Nat.strong_induction_on generalizing room scope name sites with
  | h depth ih =>
    by_cases hreached : scope.reached depth name = .error cutOff
    · exact Or.inl ⟨cutOff, hreached, rfl⟩
    refine Or.inr ?_
    cases hfound : scope.find? name with
    | none =>
      rw [reached, lexical_of_unbound hfound, valueOfName, hfound]
    | some found =>
      obtain ⟨index, given⟩ := found
      have hmark := not_contains_of_pending hbase hscope hname hfound hreached hsites
      cases depth with
      | zero => exact absurd (lexical_zero hfound) hreached
      | succ depth =>
        obtain ⟨room, rfl⟩ := Nat.exists_eq_add_of_le' (Nat.le_of_add_left_le hroom)
        rw [reached, lexical_succ hfound] at hreached ⊢
        simp only [valueOfName, hfound, hmark, Bool.false_eq_true, if_false]
        obtain ⟨layer, outer, hlayer, hfirst, hmark⟩ := exists_layer_of_find? hfound
        rw [hlayer] at hreached ⊢
        rw [hmark]
        -- what is given is evaluated within the least depth that suffices for it, within which the binding is still pending
        obtain ⟨least, hleast, heq, hless⟩ := exists_least hreached
        have hinner : layer :: outer <:+ base := hlayer ▸ (List.drop_suffix index scope).trans hscope
        have hpending : ∀ site ∈ Site.mk layer outer name :: sites, Pending base least site :=
          List.forall_mem_cons.2 ⟨⟨hinner, hname, reached_of_forall_lt hfirst hless⟩,
            fun site hsite => (hsites site hsite).anti (by omega)⟩
        have hvalues : Widens isCutOff (given.evalWith (Scope.reached least (layer :: outer)))
            (given.evalWith (valueOfName room ((Site.mk layer outer name :: sites).map Site.mark) (layer :: outer))) :=
          given.widens_evalWith_of_isName fun n hn => ih least (by omega) (by omega) hinner hn hpending
        exact (eq_of_widens hvalues (heq.trans_ne hreached)).trans heq

/-! ## Room for bindings -/

/-- Whether a binding was refused below too many others. -/
def isTooDeep : EvalError → Bool
  | .notComputable (.nestedTooDeeply _) => true
  | _ => false

/-- With more room a binding is refused for another reason or not at all, and everything else stands. -/
theorem widens_valueOfName_room (hroom : room ≤ more) (active : List String) (scope : Scope) (name : String) :
    Widens isTooDeep (valueOfName room active scope name) (valueOfName more active scope name) := by
  induction room generalizing more active scope name with
  | zero =>
    rw [valueOfName, valueOfName]
    cases scope.find? name with
    | none => exact .refl _
    | some found =>
      cases hactive : active.contains (scope.bindingMark found.1 name) with
      | true =>
        simp only [hactive, if_true]
        exact .refl _
      | false =>
        simp only [hactive, Bool.false_eq_true, if_false]
        exact Or.inl ⟨_, rfl, rfl⟩
  | succ room ih =>
    obtain ⟨more, rfl⟩ := Nat.exists_eq_add_of_le' (Nat.le_of_add_left_le hroom)
    rw [valueOfName, valueOfName]
    cases scope.find? name with
    | none => exact .refl _
    | some found =>
      simp only
      split
      · exact .refl _
      · exact found.2.widens_evalWith fun n => ih (Nat.le_of_succ_le_succ hroom) _ _ n

/-- Whether a binding was refused at all. -/
def isRefusal : EvalError → Bool
  | .notComputable (.selfReference _) | .notComputable (.nestedTooDeeply _) => true
  | _ => false

/-- Plain errors tell of no refusal. -/
theorem not_isRefusal {e : EvalError} (h : e.IsPlain) : isRefusal e = false := by
  cases e with
  | notComputable obstacle =>
    cases obstacle with
    | selfReference name | nestedTooDeeply name => exact h.elim
    | _ => rfl
  | _ => rfl

/-- What no refusal stopped is what there is without a rule. -/
theorem widens_lexical_of_valueOfName (beyond : Evaluated Value) (room : Nat) (active : List String) (scope : Scope)
    (name : String) :
    Widens isRefusal (valueOfName room active scope name) (scope.lexical beyond room name) := by
  induction room generalizing active scope name with
  | zero =>
    cases hfound : scope.find? name with
    | none =>
      rw [lexical_of_unbound hfound, valueOfName, hfound]
      exact .refl _
    | some found =>
      simp only [valueOfName, hfound]
      split
      · exact Or.inl ⟨_, rfl, rfl⟩
      · exact Or.inl ⟨_, rfl, rfl⟩
  | succ room ih =>
    cases hfound : scope.find? name with
    | none =>
      rw [lexical_of_unbound hfound, valueOfName, hfound]
      exact .refl _
    | some found =>
      rw [lexical_succ hfound]
      simp only [valueOfName, hfound]
      split
      · exact Or.inl ⟨_, rfl, rfl⟩
      · exact found.2.widens_evalWith fun n => ih _ _ n

/-- Under the rule that refuses, what comes beyond the depth does not matter as long as there is room for all of it. -/
theorem approximate_guarded (hroom : active.length + room = maxNesting) (scope : Scope) (name : String) :
    scope.approximate .guarded beyond room active name = valueOfName room active scope name := by
  induction room generalizing active scope name with
  | zero =>
    have hfull : maxNesting ≤ active.length := hroom.ge
    rw [approximate, valueOfName]
    cases scope.find? name with
    | none => rfl
    | some found =>
      simp only [NestingRule.guarded, hfull, if_true]
      cases active.contains (scope.bindingMark found.1 name) <;> rfl
  | succ room ih =>
    have hspare : ¬maxNesting ≤ active.length := by omega
    rw [approximate, valueOfName]
    cases scope.find? name with
    | none => rfl
    | some found =>
      have hinner : ∀ mark, Scope.approximate .guarded beyond room (mark :: active) (scope.fromLayer found.1) =
          valueOfName room (mark :: active) (scope.fromLayer found.1) :=
        fun mark => funext fun n => ih (by rw [List.length_cons]; omega) _ n
      simp only [NestingRule.guarded, hspare, if_false, hinner]
      cases active.contains (scope.bindingMark found.1 name) <;> rfl

end Scope

namespace Given

variable {depth deeper : Nat} {scope : Scope} {outcome : Evaluated Value}

/-- Without a rule an evaluation can only end with a plain error. -/
theorem EndsWithin.raises {given : Given} (h : given.EndsWithin .free depth scope outcome) :
    Raises EvalError.IsPlain outcome := by
  intro e he
  have hend : given.evalWith (scope.lexical (.ok .undefined) depth) = .error e := (h _).trans he
  rcases given.raises_evalWith (scope.raises_lexical) e hend with hplain | hbeyond
  · exact hplain
  · cases hbeyond

/-- An evaluation that has ended within a depth is not cut off there. -/
theorem EndsWithin.reached_ne {given : Given} (h : given.EndsWithin .free depth scope outcome) :
    given.evalWith (scope.reached depth) ≠ .error Scope.cutOff :=
  (h _).trans_ne fun heq => Scope.not_isPlain_cutOff (h.raises _ heq)

/-- What ended within a depth has ended within every greater one, with the same outcome. -/
theorem EndsWithin.mono {given : Given} (h : given.EndsWithin .free depth scope outcome) (hle : depth ≤ deeper) :
    given.EndsWithin .free deeper scope outcome := by
  intro beyond
  have hvalues := given.widens_evalWith fun n => Scope.widens_lexical beyond hle scope n
  exact (Scope.eq_of_widens hvalues h.reached_ne).trans (h _)

/-- Where an evaluation without a rule ends, refusing bindings does not change its outcome. -/
theorem EndsWithin.evalWith_valueOfName {given : Given} (h : given.EndsWithin .free depth scope outcome)
    (howners : scope.owners.Nodup) : given.evalWith (Scope.valueOfName depth [] scope) = outcome := by
  have hvalues : Widens Scope.isCutOff (given.evalWith (scope.reached depth))
      (given.evalWith (Scope.valueOfName depth [] scope)) :=
    given.widens_evalWith_of_isName fun _ hn =>
      Scope.widens_valueOfName_of_pending howners le_rfl List.suffix_rfl hn (List.forall_mem_nil _)
  exact (Scope.eq_of_widens hvalues h.reached_ne).trans (h _)

/-- What no refusal stopped ends without a rule within the room that there was. -/
theorem endsWithin_of_isPlain {given : Given} (heval : given.eval scope = outcome) (h : Raises EvalError.IsPlain outcome) :
    given.EndsWithin .free maxNesting scope outcome := by
  intro beyond
  rcases given.widens_evalWith fun n => Scope.widens_lexical_of_valueOfName beyond maxNesting [] scope n with
    ⟨e, he, hrefusal⟩ | heq
  · have hplain : e.IsPlain := h e (heval.symm.trans he)
    exact absurd hrefusal (Bool.eq_false_iff.1 (Scope.not_isRefusal hplain))
  · exact heq.trans heval

/-- Evaluation always ends. It refuses a binding as needed for its own value only where there is no end without a rule, and it
gives an outcome without a refusal exactly where that is how the evaluation without a rule ends within the room for bindings. -/
theorem eval_exact (given : Given) (howners : scope.owners.Nodup) :
    given.EndsWithin .guarded maxNesting scope (given.eval scope) ∧
      (∀ name, given.eval scope = .error (.notComputable (.selfReference name)) →
        ∀ depth outcome, ¬given.EndsWithin .free depth scope outcome) ∧
      ∀ outcome, given.EndsWithin .free maxNesting scope outcome ↔
        given.eval scope = outcome ∧ Raises EvalError.IsPlain outcome := by
  refine ⟨?ends, ?refused, ?same⟩
  case ends =>
    intro beyond
    exact congrArg given.evalWith (funext fun n => Scope.approximate_guarded (Nat.zero_add maxNesting) scope n)
  case refused =>
    intro name hrefused depth outcome hends
    -- with more room the refusal stands, and with as much as the evaluation needs it cannot
    have hroom : Widens Scope.isTooDeep (given.eval scope)
        (given.evalWith (Scope.valueOfName (max depth maxNesting) [] scope)) :=
      given.widens_evalWith fun n => Scope.widens_valueOfName_room (le_max_right ..) [] scope n
    have hsame := (hends.mono (le_max_left depth maxNesting)).evalWith_valueOfName howners
    rcases hroom with ⟨e, he, hdeep⟩ | heq
    · cases he.symm.trans hrefused
      cases hdeep
    · exact hends.raises _ (hsame.symm.trans (heq.trans hrefused))
  case same =>
    intro outcome
    constructor
    · intro hends
      exact ⟨hends.evalWith_valueOfName howners, hends.raises⟩
    · rintro ⟨heval, hplain⟩
      exact endsWithin_of_isPlain heval hplain

/-- With an owner that holds the sign in marks: a binding that asks for another one of its own name is no cycle, and one that asks
for itself below another one is. -/
theorem eval_exact_crossed :
    let scope : Scope := [⟨"a#x", [("x", .expression "y"), ("p", .expression "q")]⟩,
      ⟨"a", [("x", .literal (.string "v")), ("y", .expression "x"), ("q", .expression "q ? 1 : 2")]⟩]
    scope.owners.Nodup ∧ (Given.expression "x").EndsWithin .free maxNesting scope (.ok (.string "v")) ∧
      ∀ depth outcome, ¬(Given.expression "p").EndsWithin .free depth scope outcome := by
  intro scope
  have howners : scope.owners.Nodup := by decide
  refine ⟨howners, ?_, ?_⟩
  · exact (((Given.expression "x").eval_exact howners).2.2 _).2 ⟨rfl, Raises.ok _⟩
  · exact ((Given.expression "p").eval_exact howners).2.1 "q" rfl

end Given

end Prebake
