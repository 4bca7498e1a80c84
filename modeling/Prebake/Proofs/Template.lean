import Prebake.Proofs.Element
import Prebake.Proofs.Markup.Template
import Prebake.Proofs.Renaming

/-!
# Templates of primitives

An attempt to render a primitive whose slots are renamed, in a scope whose slots are renamed in the same way, either fails for
the same reason whatever the slots are called, or it fills one template with the markers of the new slots
(`Primitive.exists_attempt`). The children may come in as templates as well, so this goes up a tree.
-/

namespace Prebake

open Markup

variable {f : String → String} {scope : Scope}

/-! ## Properties -/

/-- Of computations that agree, the one has a result if the other has, and the results correspond. -/
theorem Agrees.toOption_eq {ε α β : Type} {of : α → β} {x : Except ε α} {y : Except ε β} (h : Agrees (of · = ·) x y) :
    y.toOption = x.toOption.map of := by
  rcases h with ⟨a, b, rfl, rfl, hab⟩ | ⟨e, rfl, rfl⟩
  · exact congrArg some hab.symm
  · rfl

/-- What is written for a property has renamed slots. -/
theorem Given.writtenValue?_renameSlots (given : Given) (scope : Scope) (prop : String) :
    (given.renameSlots f).writtenValue? (scope.renameSlots f) prop =
      (given.writtenValue? scope prop).map (Value.renameSlots f) := by
  unfold writtenValue?
  split
  · rfl
  · exact (given.agrees_eval f scope).toOption_eq

/-- A value that is written as an attribute is written with renamed slots. -/
theorem Value.attributeAs?_renameSlots (prop : String) (v : Value) : (v.renameSlots f).attributeAs? prop =
    (v.attributeAs? prop).map fun attr => (attr.1, attr.2.renameSlots f) := by
  unfold attributeAs?
  split
  · rfl
  · rw [(v.agrees_toAttribute prop).toOption_eq, Option.map_map, Option.map_map]
    rfl

/-- A value that is written as content is written with renamed slots. -/
theorem Value.contentAs_renameSlots (prop : String) (v : Value) :
    (v.renameSlots f).contentAs prop = (v.contentAs prop).map (Segment.renameSlot f) := by
  unfold contentAs
  split
  · rw [content_renameSlots]
  · rfl

namespace Givens

/-- The attributes among renamed properties are the renamed attributes. -/
theorem attributes_renameSlots (props : Givens) (scope : Scope) :
    (Givens.renameSlots f props).attributes (scope.renameSlots f) =
      (props.attributes scope).map fun attr => (attr.1, attr.2.renameSlots f) := by
  rw [attributes, attributes, Givens.renameSlots, List.filterMap_map, List.map_filterMap]
  refine List.filterMap_congr fun prop _ => ?_
  rw [Function.comp_apply, Given.writtenValue?_renameSlots]
  cases prop.2.writtenValue? scope prop.1 with
  | none => rfl
  | some v => exact v.attributeAs?_renameSlots prop.1

/-- The content among renamed properties is the renamed content. -/
theorem content_renameSlots (props : Givens) (scope : Scope) :
    (Givens.renameSlots f props).content (scope.renameSlots f) =
      (props.content scope).map (Segment.renameSlot f) := by
  rw [content, content, Givens.renameSlots, List.flatMap_map, List.map_flatMap]
  refine List.flatMap_congr fun prop _ => ?_
  rw [Given.writtenValue?_renameSlots]
  cases prop.2.writtenValue? scope prop.1 with
  | none => rfl
  | some v => simp [Value.contentAs_renameSlots]

end Givens

/-- A renamed primitive writes its renamed slots. -/
theorem Primitive.slots_renameSlots (p : Primitive) (scope : Scope) :
    (p.renameSlots f).slots (scope.renameSlots f) = (p.slots scope).map f := by
  have hattributes : ((p.props.attributes scope).map fun attr => (attr.1, attr.2.renameSlots f)).flatMap (·.2.slots) =
      ((p.props.attributes scope).flatMap (·.2.slots)).map f := by
    rw [List.flatMap_map, List.map_flatMap]
    exact List.flatMap_congr fun attr _ => attr.2.slots_renameSlots
  rw [slots, slots, renameSlots, Givens.attributes_renameSlots, Givens.content_renameSlots, slotsIn_renameSlot, hattributes,
    List.map_append]

namespace Draft

/-- Whether and why a value cannot be written does not depend on its slots, nor on what has been written before. -/
theorem agrees_addValue (draft other : Draft) (prop : String) (v : Value) :
    Agrees (fun _ _ => True) (draft.addValue prop v) (other.addValue prop (v.renameSlots f)) := by
  unfold addValue
  split
  · rw [Writer.text, Writer.text, Value.content_renameSlots]
    cases v.content.obstacle? with
    | none => exact .ok trivial
    | some obstacle => exact .error _
  · rw [Writer.property, Writer.property]
    rcases v.agrees_toAttribute (f := f) prop with ⟨attr, renamed, heq, hrenamed, -⟩ | ⟨obstacle, heq, hrenamed⟩
    · rw [heq, hrenamed]
      exact .ok trivial
    · rw [heq, hrenamed]
      exact .error _

/-- A renamed property is written or refused for the same reason, whatever has been written before. -/
theorem agrees_addProp (draft other : Draft) (scope : Scope) (prop : String) (given : Given) :
    Agrees (fun _ _ => True) (draft.addProp scope prop given)
      (other.addProp (scope.renameSlots f) prop (given.renameSlots f)) := by
  unfold addProp
  split
  · exact .ok trivial
  · exact ((given.agrees_eval f scope).mapError _).bind_eq fun v => draft.agrees_addValue other prop v

/-- Whether and why properties cannot be written does not depend on their slots. -/
theorem agrees_addProps (draft other : Draft) (scope : Scope) (props : Givens) :
    Agrees (fun _ _ => True) (draft.addProps scope props)
      (other.addProps (scope.renameSlots f) (Givens.renameSlots f props)) := by
  induction props generalizing draft other with
  | nil => exact .ok trivial
  | cons entry props ih =>
    obtain ⟨prop, given⟩ := entry
    exact (draft.agrees_addProp other scope prop given).bind fun next otherNext _ => ih next otherNext

end Draft

/-! ## Elements -/

/-- The markup of a template with its slots, all of them renamed. -/
def Template.rendered (f : String → String) (template : Template) : Rendered :=
  ⟨markup f template, NameSet.ofList ((slotsIn template).map f)⟩

/-- The template of an element in a scope, with the templates of its children. -/
def Primitive.template (p : Primitive) (scope : Scope) (children : List Template) : Template :=
  let inner := segmentsTemplate (p.props.content scope) ++ List.flatten children
  .text ("<" ++ p.tag) :: (p.props.attributes scope).flatMap (fun attr => attr.2.template attr.1) ++
    if isVoidElement p.tag && Template.isBlank inner then [.text " />"]
    else .text ">" :: inner ++ [.text ("</" ++ p.tag ++ ">")]

theorem slotsIn_flatten (templates : List (List Segment)) : slotsIn templates.flatten = templates.flatMap slotsIn := by
  rw [slotsIn, List.filterMap_flatten, List.flatMap]
  rfl

namespace Primitive

variable {p : Primitive} {children : List Template} {result : Rendered}

/-- The slots of an element are its own and those of its children. -/
theorem slotsIn_template (p : Primitive) (scope : Scope) (children : List Template) :
    slotsIn (p.template scope children) = p.slots scope ++ children.flatMap slotsIn := by
  have hattributes : slotsIn ((p.props.attributes scope).flatMap fun attr => attr.2.template attr.1) =
      (p.props.attributes scope).flatMap (·.2.slots) := by
    rw [List.flatMap, slotsIn_flatten, List.flatMap_map]
    exact List.flatMap_congr fun attr _ => attr.2.slotsIn_template attr.1
  have hinner : slotsIn (segmentsTemplate (p.props.content scope) ++ List.flatten children) =
      slotsIn (p.props.content scope) ++ children.flatMap slotsIn := by
    rw [slotsIn_append, slotsIn_segmentsTemplate, slotsIn_flatten]
  have hstart : ∀ rest : Template, slotsIn (.text ("<" ++ p.tag) :: rest) = slotsIn rest := fun _ => rfl
  rw [template, List.cons_append, hstart, slotsIn_append, hattributes, slots, List.append_assoc, ← hinner]
  refine congrArg (_ ++ ·) ?_
  split
  · rename_i hvoid
    exact (Template.slotsIn_eq_nil_of_isBlank (Bool.and_eq_true_iff.1 hvoid).2).symm
  · show slotsIn (segmentsTemplate (p.props.content scope) ++ List.flatten children ++ [.text ("</" ++ p.tag ++ ">")]) = _
    rw [slotsIn_append]
    exact List.append_nil _

/-- Renamed attributes are written by filling their templates. -/
theorem writtenAttributes_renameSlots (attributes : List (String × Attribute)) :
    writtenAttributes (attributes.map fun attr => (attr.1, attr.2.renameSlots f)) =
      Template.written f (attributes.flatMap fun attr => attr.2.template attr.1) := by
  rw [writtenAttributes, List.flatMap_map, Template.written_flatMap]
  exact List.flatMap_congr fun attr _ => attr.2.written_renameSlots attr.1

/-- What is written inside of an element with renamed slots. -/
theorem inner_renameSlots : (p.renameSlots f).inner (children.map (Template.rendered f)) (scope.renameSlots f) =
    Template.written f (segmentsTemplate (p.props.content scope) ++ List.flatten children) := by
  rw [inner, renameSlots, Givens.content_renameSlots, writtenSegments_renameSlot, Template.written_append,
    Template.written_flatten, List.flatMap_map]
  rfl

/-- If a primitive with renamed slots is rendered, it fills its template. -/
theorem eq_rendered_template
    (h : (p.renameSlots f).render (children.map (Template.rendered f)) (scope.renameSlots f) = .ok result) :
    result = Template.rendered f (p.template scope children) := by
  have hhtml : result.html.toList = Template.written f (p.template scope children) := by
    have hblank : (Template.written f (segmentsTemplate (p.props.content scope) ++ List.flatten children)).isEmpty =
        Template.isBlank (segmentsTemplate (p.props.content scope) ++ List.flatten children) := by
      rw [Bool.eq_iff_iff, Template.isBlank_iff, List.isEmpty_iff]
    rw [toList_html_render h, inner_renameSlots, template, ending, hblank]
    show '<' :: p.tag.toList ++ writtenAttributes ((Givens.renameSlots f p.props).attributes (scope.renameSlots f)) ++
      (if isVoidElement p.tag && _ then _ else _ :: _ ++ '<' :: '/' :: p.tag.toList ++ ['>']) = _
    rw [Givens.attributes_renameSlots, writtenAttributes_renameSlots]
    split <;> simp
  have hslots : result.slots = NameSet.ofList ((slotsIn (p.template scope children)).map f) := by
    refine NameSet.ext_names fun slot => ?_
    rw [mem_slots_render ?_ h, slots_renameSlots, slotsIn_template, NameSet.mem_names_ofList, List.map_append,
      List.mem_append, List.map_flatMap, List.mem_flatMap]
    · simp [Template.rendered]
    · intro child hchild hempty
      obtain ⟨template, -, rfl⟩ := List.mem_map.1 hchild
      have hnone := Template.slotsIn_eq_nil_of_isBlank (Template.isBlank_iff.2 hempty)
      rw [Template.rendered, hnone]
      rfl
  obtain ⟨html, slots⟩ := result
  exact congrArg₂ Rendered.mk (String.toList_inj.1 hhtml) hslots

/-- Rendering fails for one reason, or it fills one template, whatever the slots are called. -/
theorem exists_render (p : Primitive) (scope : Scope) (children : List Template) :
    ∃ outcome : Except Reason Template, ∀ f, (p.renameSlots f).render (children.map (Template.rendered f))
      (scope.renameSlots f) = outcome.map (Template.rendered f) := by
  have hprops := fun f => (Draft.begin p.tag).agrees_addProps (f := f) (Draft.begin p.tag) scope p.props
  cases hdraft : (Draft.begin p.tag).addProps scope p.props with
  | error reason =>
    refine ⟨.error reason, fun f => ?_⟩
    rcases hprops f with ⟨_, _, hok, -⟩ | ⟨_, hfirst, hrenamed⟩
    · rw [hdraft] at hok
      cases hok
    · rw [hdraft] at hfirst
      cases hfirst
      exact bind_eq_error_iff.2 (Or.inl hrenamed)
  | ok draft =>
    refine ⟨.ok (p.template scope children), fun f => ?_⟩
    rcases hprops f with ⟨_, renamed, -, hrenamed, -⟩ | ⟨_, hfirst, -⟩
    · have hrender : (p.renameSlots f).render (children.map (Template.rendered f)) (scope.renameSlots f) =
          .ok (((children.map (Template.rendered f)).foldl Draft.addChild renamed).rendered p.tag) :=
        bind_eq_ok_iff.2 ⟨renamed, hrenamed, rfl⟩
      exact hrender.trans (congrArg Except.ok (eq_rendered_template hrender))
    · rw [hdraft] at hfirst
      cases hfirst

/-- The markup of children fails to be there for one child, or it fills templates, whatever the slots are called. -/
theorem exists_childMarkup (pairs : List (String × Option Template)) :
    ∃ outcome : Except Reason (List Template), ∀ f,
      childMarkup (pairs.map fun pair => (pair.1, pair.2.map (Template.rendered f))) =
        outcome.map (List.map (Template.rendered f)) := by
  induction pairs with
  | nil => exact ⟨.ok [], fun _ => rfl⟩
  | cons pair pairs ih =>
    obtain ⟨child, _ | template⟩ := pair
    · exact ⟨.error (.deferredChild child), fun _ => rfl⟩
    · obtain ⟨rest | rest, hrest⟩ := ih
      · exact ⟨.error rest, fun f => bind_eq_error_iff.2 (Or.inl (hrest f))⟩
      · exact ⟨.ok (template :: rest), fun f => bind_eq_ok_iff.2 ⟨_, hrest f, rfl⟩⟩

/-- An attempt fails for one reason, or it fills one template, whatever the slots are called. -/
theorem exists_attempt (p : Primitive) (scope : Scope) (children : List (Option Template)) :
    ∃ outcome : Except Reason Template, ∀ f,
      (p.renameSlots f).attempt (children.map (Option.map (Template.rendered f))) (scope.renameSlots f) =
        outcome.map (Template.rendered f) := by
  have hzip : ∀ f, (p.renameSlots f).children.zip (children.map (Option.map (Template.rendered f))) =
      (p.children.zip children).map fun pair => (pair.1, pair.2.map (Template.rendered f)) := fun f =>
    List.zip_map_right ..
  obtain ⟨reason | templates, hchildren⟩ := exists_childMarkup (p.children.zip children)
  · refine ⟨.error reason, fun f => ?_⟩
    rw [attempt, hzip, hchildren]
    rfl
  · obtain ⟨outcome, hrender⟩ := p.exists_render scope templates
    refine ⟨outcome, fun f => ?_⟩
    rw [attempt, hzip, hchildren]
    exact hrender f

end Primitive

end Prebake
