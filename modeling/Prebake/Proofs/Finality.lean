import Prebake.Proofs.Rendering

/-!
# Outcomes that are final

An attempt that is not open is never repeated, so it must turn out the same in every wider scope. It does as long as the layers
that are added bind no predefined name (`Primitive.attempt_append_of_not_isOpen`), and only then: a predefined name has a value
before all layers are known, so whoever binds it further out comes too late (`Primitive.attempt_final_iff`).

For the converse it does not matter what the late binding gives, be it the very value that the name had before. The primitive
that shows it asks for the name below as many bindings as may be under evaluation, and then there is no room for one more.
-/

namespace Prebake

namespace Scope

variable {active : List String} {layer : Layer} {rest : Scope} {name : String} {given : Given} {room : Nat}

/-! ## One layer -/

/-- A layer that does not bind a name has no part in its value. -/
theorem valueOfName_cons_of_unbound (h : layer.bindings.lookup name = none) :
    valueOfName room active (layer :: rest) name = valueOfName room active rest name := by
  cases hrest : rest.find? name with
  | none =>
    have hfind : find? (layer :: rest) name = none := by
      rw [find?, h, hrest]
      rfl
    rw [valueOfName, valueOfName, hrest, hfind]
  | some found =>
    have hfind : find? (layer :: rest) name = some (found.1 + 1, found.2) := by
      rw [find?, h, hrest]
      rfl
    rw [valueOfName, valueOfName, hrest, hfind]
    cases room with
    | zero => rfl
    | succ room => rfl

/-- What a layer binds is evaluated in the scope from this layer, with one more binding under evaluation. -/
theorem valueOfName_cons_of_bound (h : layer.bindings.lookup name = some given)
    (hmark : layer.owner ++ "#" ++ name ∉ active) :
    valueOfName (room + 1) active (layer :: rest) name =
      given.evalWith (valueOfName room ((layer.owner ++ "#" ++ name) :: active) (layer :: rest)) := by
  have hfind : find? (layer :: rest) name = some (0, given) := by
    rw [find?, h]
  rw [valueOfName, hfind]
  exact if_neg (mt List.contains_iff_mem.1 hmark)

/-- Where no room is left, a name that is bound has no value. -/
theorem valueOfName_zero_of_bound (active : List String) (rest : Scope) (h : layer.bindings.lookup name = some given) :
    ∃ obstacle, valueOfName 0 active (layer :: rest) name = notComputable obstacle := by
  have hfind : find? (layer :: rest) name = some (0, given) := by
    rw [find?, h]
  rw [valueOfName, hfind]
  dsimp only
  split
  · exact ⟨_, rfl⟩
  · exact ⟨_, rfl⟩

/-! ## A long way to a name -/

/-- The name that the layer `k` of the detour binds. -/
def detourName (k : Nat) : String := if k % 2 = 0 then "ping" else "pong"

/-- The layer `k` of the detour, which binds its name and nothing else. -/
def detourLayer (k : Nat) (given : Given) : Layer := ⟨String.ofList (List.replicate k 'o'), [(detourName k, given)]⟩

/-- Layers that each bind a name to that of the next layer, down to a last one that binds it to a name of choice. -/
def detour (name : String) : Nat → Scope
  | 0 => [detourLayer 0 (.expression name)]
  | k + 1 => detourLayer (k + 1) (.expression (detourName k)) :: detour name k

/-- The mark of the binding in the layer `k` of the detour. -/
def detourMark (k : Nat) : String := String.ofList (List.replicate k 'o') ++ "#" ++ detourName k

/-- The marks of a detour have different lengths. -/
theorem length_detourMark (k : Nat) : (detourMark k).length = k + 5 := by
  have hname : (detourName k).length = 4 := by
    unfold detourName
    split <;> rfl
  rw [detourMark, String.length_append, String.length_append, hname, String.length_ofList, List.length_replicate]
  rfl

/-- A name on a detour is an expression and has the value of that name. -/
theorem evalWith_detourName (k : Nat) (valueOf : String → Evaluated Value) :
    (Given.expression (detourName k)).evalWith valueOf = valueOf (detourName k) := by
  unfold detourName
  split <;> rfl

theorem evalWith_predefined (h : name ∈ predefinedNames) (valueOf : String → Evaluated Value) :
    (Given.expression name).evalWith valueOf = valueOf name := by
  simp only [predefinedNames, List.mem_cons, List.not_mem_nil, or_false] at h
  rcases h with rfl | rfl | rfl <;> rfl

/-- A detour does not bind what it leads to. -/
theorem detourName_ne_predefined (k : Nat) (h : name ∈ predefinedNames) : detourName k ≠ name := by
  rintro rfl
  unfold detourName at h
  revert h
  split <;> decide

/-- Two layers of a detour that stand side by side bind different names. -/
theorem detourName_succ_ne (k : Nat) : detourName (k + 1) ≠ detourName k := by
  unfold detourName
  split <;> split
  · omega
  · decide
  · decide
  · omega

/-- A layer of a detour passes on all names but its own. -/
theorem valueOfName_detourLayer_of_ne {k : Nat} {other : String} (h : detourName k ≠ other) :
    valueOfName room active (detourLayer k given :: rest) other = valueOfName room active rest other := by
  refine valueOfName_cons_of_unbound ?_
  rw [detourLayer, List.lookup_cons, beq_eq_false_iff_ne.2 h.symm]
  rfl

/-- A layer of a detour gives its own name the value of what it binds, with one more binding under evaluation. -/
theorem valueOfName_detourLayer {k : Nat} (h : detourMark k ∉ active) :
    valueOfName (room + 1) active (detourLayer k given :: rest) (detourName k) =
      given.evalWith (valueOfName room (detourMark k :: active) (detourLayer k given :: rest)) :=
  valueOfName_cons_of_bound List.lookup_cons_self h

/-- A mark is new where all active ones are longer. -/
theorem detourMark_not_mem {k : Nat} (h : ∀ mark ∈ active, k + 5 < mark.length) : detourMark k ∉ active := by
  intro hin
  have hlength := h _ hin
  rw [length_detourMark] at hlength
  exact Nat.lt_irrefl _ hlength

/-- The detour takes one binding for each of its layers. The marks are the longer the further in a layer is, so none of them comes
twice. -/
theorem exists_valueOfName_detour (room : Nat) (rest : Scope) (hname : name ∈ predefinedNames) (k : Nat)
    (hactive : ∀ mark ∈ active, k + 5 < mark.length) :
    ∃ active', valueOfName (room + k + 1) active (detour name k ++ rest) (detourName k) =
      valueOfName room active' rest name := by
  induction k generalizing active with
  | zero =>
    refine ⟨detourMark 0 :: active, ?_⟩
    rw [detour, List.singleton_append, valueOfName_detourLayer (detourMark_not_mem hactive), evalWith_predefined hname]
    exact valueOfName_detourLayer_of_ne (detourName_ne_predefined 0 hname)
  | succ k ih =>
    -- the layer that asks for the next name does not bind it, so it is looked up behind this layer
    rw [detour, List.cons_append, valueOfName_detourLayer (detourMark_not_mem hactive), evalWith_detourName,
      valueOfName_detourLayer_of_ne (detourName_succ_ne k)]
    refine ih (List.forall_mem_cons.2 ⟨?_, fun mark hmark => ?_⟩)
    · rw [length_detourMark]
      omega
    · have hlength := hactive mark hmark
      omega

/-- As long as no layer binds it, a predefined name has a value even at the end of the longest detour. -/
theorem valueOf_detour (hname : name ∈ predefinedNames) : ∃ value, (detour name 63).valueOf "pong" = .ok value := by
  obtain ⟨active', heq⟩ := exists_valueOfName_detour 0 [] hname 63 (List.forall_mem_nil _)
  rw [List.append_nil] at heq
  have hunbound : valueOfName 0 active' [] name = unboundValue name := rfl
  have hvalue : ∃ value, unboundValue name = .ok value := by
    simp only [predefinedNames, List.mem_cons, List.not_mem_nil, or_false] at hname
    rcases hname with rfl | rfl | rfl <;> exact ⟨_, rfl⟩
  obtain ⟨value, hvalue⟩ := hvalue
  exact ⟨value, heq.trans (hunbound.trans hvalue)⟩

/-- There is no room for a binding at the end of the longest detour. -/
theorem valueOf_detour_append (layer : Layer) (hname : name ∈ predefinedNames) (h : layer.bindings.lookup name = some given) :
    ∃ obstacle, (detour name 63 ++ [layer]).valueOf "pong" = notComputable obstacle := by
  obtain ⟨active', heq⟩ := exists_valueOfName_detour 0 [layer] hname 63 (List.forall_mem_nil _)
  obtain ⟨obstacle, hobstacle⟩ := valueOfName_zero_of_bound active' [] h
  exact ⟨obstacle, heq.trans hobstacle⟩

end Scope

/-! ## Late bindings -/

namespace Primitive

/-- A primitive whose text is that of `undefined`, if only the name at the end of the detour has a value. -/
def detoured : Primitive :=
  { Primitive.new (Scope.detourLayer 63 default).owner "p" with
    bindings := (Scope.detourLayer 63 (.expression (Scope.detourName 62))).bindings
    props := [("children", .expression "void pong")] }

theorem detour_eq_cons (name : String) : Scope.detour name 63 = detoured.layer :: Scope.detour name 62 := rfl

/-- The primitive on a detour is rendered if its name has a value, and else fails with what is wrong with that. -/
theorem attempt_detoured (scope : Scope) :
    ∃ rendered, detoured.attempt [] scope =
      ((scope.valueOf "pong").mapError (Reason.ofEvaluation "children")).map fun _ => rendered := by
  have heval : (Given.expression "void pong").eval scope =
      scope.valueOf "pong" >>= fun _ => Evaluated.ofOperation (.ok .undefined) := rfl
  have hattempt : detoured.attempt [] scope =
      (Draft.begin "p").addProps scope [("children", .expression "void pong")] >>= fun draft => .ok (draft.rendered "p") := rfl
  have hskipped : Markup.isSkipped "children" = false := by decide
  rw [hattempt, Draft.addProps, Draft.addProp, hskipped, heval]
  cases scope.valueOf "pong" with
  | error e => exact ⟨default, rfl⟩
  | ok value => exact ⟨_, rfl⟩

/-- An attempt that has turned out is final, however the scope is widened, exactly if the layers that are added bind no predefined
name. -/
theorem attempt_final_iff (outer : Primitive) :
    (∀ (p : Primitive) (children : List (Option Rendered)) (around : Scope),
      (p.attempt children (p.layer :: around)).isOpen = false →
        p.attempt children (Scope.pushOuter (p.layer :: around) outer.layer) = p.attempt children (p.layer :: around)) ↔
      outer.bindings.SparesPredefined := by
  constructor
  · intro hfinal name hname
    cases hbound : outer.bindings.lookup name with
    | none => rfl
    | some given =>
      obtain ⟨value, hvalue⟩ := Scope.valueOf_detour hname
      obtain ⟨obstacle, hobstacle⟩ := Scope.valueOf_detour_append outer.layer hname hbound
      obtain ⟨rendered, hnarrow⟩ := attempt_detoured (Scope.detour name 63)
      obtain ⟨rendered', hwide⟩ := attempt_detoured (Scope.detour name 63 ++ [outer.layer])
      rw [hvalue] at hnarrow
      rw [hobstacle] at hwide
      have hsame := hfinal detoured [] (Scope.detour name 62) (by rw [← detour_eq_cons, hnarrow]; rfl)
      rw [← detour_eq_cons, Scope.pushOuter, hnarrow, hwide] at hsame
      cases hsame
  · intro hspares p children around hclosed
    refine attempt_append_of_not_isOpen ?_ hclosed
    rintro layer hlayer
    cases List.mem_singleton.1 hlayer
    exact hspares

/-- A primitive whose text is what `undefined` gives. -/
def nameless : Primitive := (Primitive.new "a" "p").withProp "children" (.expression "undefined")

/-- A primitive that binds `undefined` for what is in it. -/
def lateNamer : Primitive := (Primitive.new "page" "main").withBinding "undefined" (.literal (.string "x"))

/-- The markup of `nameless` changes when the layer of `lateNamer` is added, though the first attempt has already given markup. -/
theorem nameless_changes : (nameless.attempt [] [nameless.layer]).toOption.map (·.html) = some "<p></p>" ∧
    (nameless.attempt [] (Scope.pushOuter [nameless.layer] lateNamer.layer)).toOption.map (·.html) = some "<p>x</p>" := by
  decide +kernel

end Primitive

end Prebake
