import Mathlib.Data.List.Forall2
import Prebake.Evaluation
import Prebake.Proofs.Except
import Prebake.Proofs.Value.Segments

/-!
# Joining texts

There are three ways to put a text together: to join segments, to add values one to another, and to write a template. They come
to the same text, whatever slots, arrays and empty texts are among the pieces and in whatever order they are joined
(`joining_agrees`). The reason is that each step leaves a value which has the normal form of all segments joined so far.
-/

namespace Prebake

variable {valueOf : String → Evaluated Value}

/-- The expression in a hole of a template. -/
def Span.hole : Span → Expr
  | .mk hole _ => hole

/-- The text after a hole of a template. -/
def Span.text : Span → String
  | .mk _ text => text

/-- The expression in a hole has a value. -/
def Span.HasValue (valueOf : String → Evaluated Value) (span : Span) (value : Value) : Prop :=
  span.hole.eval valueOf = .ok value

namespace Value

/-- The segments of the values of holes and of the texts after them. -/
def spanSegments (spans : List (Value × String)) : List Segment :=
  spans.flatMap fun (value, text) => value.toSegments ++ [.text text]

/-- A sum to which the values of holes and the texts after them are added from left to right. -/
def addSpans (sum : Value) : List (Value × String) → Except Obstacle Value
  | [] => .ok sum
  | (value, text) :: spans => do
    let sum ← sum.add value
    let sum ← sum.add (string text)
    addSpans sum spans

@[simp] theorem ofSegments_text (s : String) : ofSegments [.text s] = string s := by
  by_cases hs : s = "" <;> simp [ofSegments, Segment.merge, Segment.consMerged, hs, Segment.isSlot, Segment.literal]

/-- A sum that starts with a text has all segments one after the other. -/
theorem addSpans_ofSegments (segments : List Segment) (spans : List (Value × String)) :
    (ofSegments segments).addSpans spans = .ok (ofSegments (segments ++ spanSegments spans)) := by
  induction spans generalizing segments with
  | nil => rw [addSpans, spanSegments, List.flatMap_nil, List.append_nil]
  | cons span spans ih =>
    obtain ⟨value, text⟩ := span
    have hvalue := ofSegments_add segments value
    have htext := ofSegments_add (segments ++ value.toSegments) (string text)
    rw [addSpans, hvalue]
    show ((ofSegments (segments ++ value.toSegments)).add (string text) >>= fun sum => sum.addSpans spans) = _
    rw [htext]
    show (ofSegments (segments ++ value.toSegments ++ [.text text])).addSpans spans = _
    rw [ih, spanSegments, spanSegments, List.flatMap_cons]
    simp only [List.append_assoc]

end Value

open Value

/-- The holes of a template are evaluated one after the other. -/
theorem Expr.evalSpans_eq_ok {spans : List Span} {values : List Value}
    (h : List.Forall₂ (Span.HasValue valueOf) spans values) :
    Expr.evalSpans valueOf spans = .ok (spanSegments (values.zip (spans.map Span.text))) := by
  induction h with
  | nil => rfl
  | @cons span value spans values hspan _ ih =>
    obtain ⟨hole, text⟩ := span
    rw [Expr.evalSpans]
    refine bind_eq_ok_iff.2 ⟨value, hspan, bind_eq_ok_iff.2 ⟨_, ih, ?_⟩⟩
    simp [spanSegments, Span.text, pure, Except.pure]

/-- Joining segments is adding the values that they make up; addition around a text, an array or an object is associative; and
a template whose holes have values is the sum of its texts and these values. -/
theorem joining_agrees :
    (∀ segments others : List Segment,
      (ofSegments segments).add (ofSegments others) = .ok (ofSegments (segments ++ others))) ∧
    (∀ a b c : Value, b.joins = true →
      ∃ sum, (do (← a.add b).add c) = .ok sum ∧ (do a.add (← b.add c)) = .ok sum) ∧
    ∀ (valueOf : String → Evaluated Value) (head : String) (spans : List Span) (values : List Value),
      List.Forall₂ (Span.HasValue valueOf) spans values →
        ∃ sum, (Expr.template head spans).eval valueOf = .ok sum ∧
          (string head).addSpans (values.zip (spans.map Span.text)) = .ok sum := by
  refine ⟨?_, ?_, ?_⟩
  · intro segments others
    rw [ofSegments_add]
    exact congrArg Except.ok (ofSegments_congr (merge_append_toSegments_ofSegments segments others))
  · intro a b c hb
    have hleft := add_of_joins (a := a) (Or.inr hb)
    have hright := add_of_joins (b := c) (Or.inl hb)
    refine ⟨ofSegments (a.toSegments ++ b.toSegments ++ c.toSegments), ?_, ?_⟩
    · exact bind_eq_ok_iff.2 ⟨_, hleft, ofSegments_add _ c⟩
    · rw [List.append_assoc]
      exact bind_eq_ok_iff.2 ⟨_, hright, add_ofSegments a _⟩
  · intro valueOf head spans values h
    refine ⟨ofSegments (.text head :: spanSegments (values.zip (spans.map Span.text))), ?_, ?_⟩
    · rw [Expr.eval]
      exact bind_eq_ok_iff.2 ⟨_, Expr.evalSpans_eq_ok h, rfl⟩
    · rw [← ofSegments_text, addSpans_ofSegments]
      rfl

/-- A list of names of which one is known to the server only. -/
def namesScope : Scope :=
  [⟨"card", [("names", .expression "[first, null, \"\"]")]⟩, ⟨"page", [("first", .slot "first")]⟩]

/-- A list with a slot, nothing and an empty text in it is joined with a number and with `undefined`, and fills a template.
-/
theorem joining_agrees_names :
    (array [ofSlot "first", null, string ""]).joins = true ∧
      (∃ sum, (do (← (number 1.0).add (array [ofSlot "first", null, string ""])).add undefined) = .ok sum ∧
        (do (number 1.0).add (← (array [ofSlot "first", null, string ""]).add undefined)) = .ok sum) ∧
      List.Forall₂ (Span.HasValue namesScope.valueOf) [.mk (.name "names") "!"]
        [array [ofSlot "first", null, string ""]] ∧
      ∃ sum, (Expr.template "" [.mk (.name "names") "!"]).eval namesScope.valueOf = .ok sum ∧
        (string "").addSpans [(array [ofSlot "first", null, string ""], "!")] = .ok sum := by
  have hjoins : (array [ofSlot "first", null, string ""]).joins = true := rfl
  have hvalues : List.Forall₂ (Span.HasValue namesScope.valueOf) [.mk (.name "names") "!"]
      [array [ofSlot "first", null, string ""]] := .cons (by rfl) .nil
  obtain ⟨-, hassociative, htemplate⟩ := joining_agrees
  exact ⟨hjoins, hassociative _ _ _ hjoins, hvalues, htemplate _ "" _ _ hvalues⟩

end Prebake
