import Mathlib.Data.List.Induction
import Prebake.Evaluation
import Prebake.Proofs.Except

/-!
# Chains of accesses

A chain of accesses is evaluated access by access (`Expr.eval_accesses`). An optional access gives `undefined` where there is
nothing to access, and the accesses after it in the chain know nothing of that: the next one is a plain access to `undefined`.
So the chain has a value only if it ends there, and otherwise it fails as soon as the next key is evaluated
(`Expr.eval_optionalChain`).
-/

namespace Prebake

/-- A step in a chain of accesses: a name after a dot, or a key in brackets. -/
inductive Access where
  | name (key : String)
  | index (key : Expr)

variable {valueOf : String → Evaluated Value} {receiver : Expr} {value : Value}

namespace Access

/-- The expression that accesses the value of another one. -/
def of (optional : Bool) (receiver : Expr) : Access → Expr
  | name key => .member receiver key optional
  | index key => .index receiver key optional

/-- The value of the key of an access. -/
def keyValue (valueOf : String → Evaluated Value) : Access → Evaluated Value
  | name key => .ok (.string key)
  | index key => key.eval valueOf

/-- What a plain access gives for a value. -/
def read (valueOf : String → Evaluated Value) (receiver : Value) (access : Access) : Evaluated Value := do
  receiver.member (← access.keyValue valueOf)

/-- The failure of an access to `undefined`, or that of its key. -/
def readUndefined (valueOf : String → Evaluated Value) (access : Access) : Evaluated Value := do
  let text : String ← (← access.keyValue valueOf).toText
  notComputable (.propertyOfNothing text "undefined")

/-- A plain access reads a property of the value of its receiver. -/
theorem eval_plain (access : Access) (receiver : Expr) :
    (access.of false receiver).eval valueOf = receiver.eval valueOf >>= fun value => access.read valueOf value := by
  cases access with
  | name key =>
    simp only [of, Expr.eval]
    rfl
  | index key =>
    simp only [of, Expr.eval]
    rfl

/-- An optional access to nothing is `undefined`, whatever its key would be. -/
theorem eval_optional (access : Access) (h : receiver.eval valueOf = .ok value) (hnullish : value.isNullish = true) :
    (access.of true receiver).eval valueOf = .ok .undefined := by
  have hstops : ∀ rest : Evaluated Value,
      (if (true && value.isNullish) = true then pure Value.undefined else rest) = .ok .undefined := fun rest => if_pos hnullish
  cases access with
  | name key =>
    simp only [of, Expr.eval, h]
    exact hstops _
  | index key =>
    simp only [of, Expr.eval, h]
    exact hstops _

/-- An access to `undefined` fails once the key has a value. -/
theorem read_undefined (access : Access) : access.read valueOf .undefined = access.readUndefined valueOf := by
  rw [read, readUndefined]
  cases access.keyValue valueOf with
  | error e => rfl
  | ok key =>
    show Evaluated.ofOperation (key.toText >>= fun text => Value.undefined.property text) =
      Evaluated.ofOperation key.toText >>= fun text => _
    cases key.toText <;> rfl

/-- An access to `undefined` has no value in any case. -/
theorem readUndefined_ne_ok (access : Access) : access.readUndefined valueOf ≠ .ok value := by
  intro h
  obtain ⟨key, -, h⟩ := bind_eq_ok_iff.1 h
  obtain ⟨text, -, h⟩ := bind_eq_ok_iff.1 h
  cases h

end Access

namespace Expr

/-- An expression followed by plain accesses. -/
def accesses (receiver : Expr) (rest : List Access) : Expr := rest.foldl (fun e access => access.of false e) receiver

/-- A chain of accesses, the first of them optional. -/
def optionalChain (receiver : Expr) (first : Access) (rest : List Access) : Expr :=
  .chain ((first.of true receiver).accesses rest)

/-- Accesses are evaluated one after the other. -/
theorem eval_accesses (receiver : Expr) (rest : List Access) :
    (receiver.accesses rest).eval valueOf =
      receiver.eval valueOf >>= fun value => rest.foldlM (Access.read valueOf) value := by
  induction rest generalizing receiver with
  | nil => exact (bind_pure _).symm
  | cons access rest ih =>
    have hrest : receiver.accesses (access :: rest) = (access.of false receiver).accesses rest := rfl
    rw [hrest, ih, access.eval_plain, bind_assoc]
    rfl

/-- The whole of a chain has the value of its accesses. -/
theorem eval_chain_accesses (access : Access) (optional : Bool) (receiver : Expr) (rest : List Access) :
    (chain ((access.of optional receiver).accesses rest)).eval valueOf =
      ((access.of optional receiver).accesses rest).eval valueOf := by
  have hlast : ∃ (last : Access) (flag : Bool) (inner : Expr),
      (access.of optional receiver).accesses rest = last.of flag inner := by
    induction rest using List.reverseRecOn with
    | nil => exact ⟨access, optional, receiver, rfl⟩
    | append_singleton rest last _ => exact ⟨last, false, (access.of optional receiver).accesses rest, List.foldl_append⟩
  obtain ⟨last, flag, inner, heq⟩ := hlast
  rw [heq]
  cases last with
  | name key => simp only [Access.of, eval]
  | index key => simp only [Access.of, eval]

/-- Where there is nothing to access, an optional access gives `undefined`, which is the value of the whole chain only if nothing
follows. Otherwise the key of the next access is evaluated and that access fails; the accesses after it are not looked at. -/
theorem eval_optionalChain (first : Access) (rest : List Access) (h : receiver.eval valueOf = .ok value)
    (hnullish : value.isNullish = true) :
    (optionalChain receiver first rest).eval valueOf =
        (match rest with
        | [] => .ok .undefined
        | next :: _ => next.readUndefined valueOf) ∧
      ((optionalChain receiver first rest).eval valueOf = .ok .undefined ↔ rest = []) := by
  have heval : (optionalChain receiver first rest).eval valueOf = rest.foldlM (Access.read valueOf) .undefined := by
    rw [optionalChain, eval_chain_accesses, eval_accesses, first.eval_optional h hnullish]
    rfl
  rw [heval]
  cases rest with
  | nil => exact ⟨rfl, iff_of_true rfl rfl⟩
  | cons next rest =>
    have hnext : (next :: rest).foldlM (Access.read valueOf) .undefined = next.readUndefined valueOf := by
      rw [List.foldlM_cons, next.read_undefined]
      cases hresult : next.readUndefined valueOf with
      | error e => rfl
      | ok value => exact absurd hresult next.readUndefined_ne_ok
    rw [hnext]
    exact ⟨rfl, iff_of_false next.readUndefined_ne_ok (List.cons_ne_nil _ _)⟩

/-- A scope in which `o` is null. -/
def nullScope : Scope := [⟨"a", [("o", .literal .null)]⟩]

/-- In `nullScope` the chain `o?.k.j` fails at its second access. -/
theorem eval_optionalChain_nullScope : (name "o").eval nullScope.valueOf = .ok .null ∧ Value.null.isNullish = true ∧
    read? "o?.k.j".toList = some (optionalChain (name "o") (.name "k") [.name "j"]) ∧
    (optionalChain (name "o") (.name "k") [.name "j"]).eval nullScope.valueOf =
      notComputable (.propertyOfNothing "j" "undefined") := by
  have hnull : (name "o").eval nullScope.valueOf = .ok .null := rfl
  have hchain := (eval_optionalChain (.name "k") [.name "j"] hnull rfl).1
  exact ⟨hnull, rfl, rfl, hchain⟩

/-- So it does not stop where its receiver is null, and where the next key is in brackets that key is evaluated. -/
theorem evalSource_nullScope : evalSource nullScope.valueOf "o" = .ok .null ∧
    evalSource nullScope.valueOf "o?.k" = .ok .undefined ∧
    evalSource nullScope.valueOf "o?.k.j" = notComputable (.propertyOfNothing "j" "undefined") ∧
    evalSource nullScope.valueOf "o?.k[j]" = .error (.missingBinding "j") :=
  ⟨rfl, rfl, rfl, rfl⟩

end Expr

end Prebake
