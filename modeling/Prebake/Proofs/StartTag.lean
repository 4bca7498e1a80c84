import Prebake.Proofs.Structure

/-!
# Start tags

The markup of a primitive starts with one start tag, whose attributes are those of the properties that are written as attributes.
Their names are the names of the properties, some of them under another spelling, and browsers do not tell names apart by the
case of their letters. So a start tag may have two attributes of one name although no two properties share their name.
`attempt_startTag_iff` says for which properties this happens.
-/

namespace Prebake

open Markup

variable {scope : Scope} {name prop : String}

/-! ## Names without regard to case -/

namespace Markup

/-- A name without regard to the case of ASCII letters. -/
def foldCase (name : String) : String := String.ofList (name.toList.map Char.toLower)

/-- The properties whose attributes have another name, also without regard to case. -/
def respelledProperties : List (String × String) :=
  [("className", "class"), ("htmlFor", "for"), ("acceptCharset", "accept-charset"), ("httpEquiv", "http-equiv")]

/-- The name of the attribute of a property without regard to case: that of the property, unless it is respelled. -/
def knownAs (prop : String) : String := (respelledProperties.lookup prop).getD (foldCase prop)

/-- All other renamed attributes have the names of their properties in another case. -/
theorem foldCase_attributeName (prop : String) : foldCase (attributeName prop) = knownAs prop := by
  have hrenamed : ∀ entry ∈ renamedAttributes, foldCase entry.2 = knownAs entry.1 := by decide
  have hsubset : respelledProperties ⊆ renamedAttributes := by decide
  unfold attributeName
  cases hlookup : renamedAttributes.lookup prop with
  | some name =>
    obtain ⟨first, rest, hentries, -⟩ := List.lookup_eq_some_iff.1 hlookup
    exact hrenamed (prop, name) (hentries ▸ List.mem_append_right _ List.mem_cons_self)
  | none =>
    have hnone : respelledProperties.lookup prop = none :=
      List.lookup_eq_none_iff.2 fun entry hentry => List.lookup_eq_none_iff.1 hlookup entry (hsubset hentry)
    rw [knownAs, hnone]
    rfl

end Markup

/-! ## The start tag of a text -/

namespace Markup

/-- A text starts with the start tag of an element. -/
structure HasStartTag (html : List Char) (tag : String) (attributes : List NodeAttribute) : Prop where
  proper_tag : ∀ c ∈ tag.toList, IsTagChar c
  proper_attributes : ∀ attr ∈ attributes, attr.Proper
  text_eq : ∃ rest, EndsTag rest ∧ html = '<' :: (tag.toList ++ (attributes.flatMap NodeAttribute.text ++ rest))

/-- A text starts with one start tag at most. -/
theorem HasStartTag.unique {html : List Char} {tag tag' : String} {attributes attributes' : List NodeAttribute}
    (h : HasStartTag html tag attributes) (h' : HasStartTag html tag' attributes') : tag' = tag ∧ attributes' = attributes := by
  obtain ⟨rest, hrest, htext⟩ := h.text_eq
  obtain ⟨rest', hrest', htext'⟩ := h'.text_eq
  have hsame := (List.cons.inj (htext'.symm.trans htext)).2
  obtain ⟨htag, hattributes, -⟩ :=
    Node.eq_of_startTag_append h'.proper_tag h.proper_tag h'.proper_attributes h.proper_attributes hrest' hrest hsame
  exact ⟨htag, hattributes⟩

end Markup

/-- Behind the attributes of an element its tag ends. -/
theorem endsTag_ending (tag : String) (inner : List Char) : EndsTag (ending tag inner) := by
  unfold ending
  split
  · exact Or.inr ⟨['>'], rfl⟩
  · exact Or.inl ⟨_, rfl⟩

/-! ## The properties in a start tag -/

/-- Whether a value is written as the attribute of a property. -/
def Value.isAttributeOf (prop : String) (value : Value) : Bool :=
  !isContent prop && match value.toAttribute prop with
    | .ok .nameOnly | .ok (.quoted _) => true
    | .ok .omitted | .error _ => false

/-- The properties that are written as attributes in a scope, in their order. -/
def Givens.attributeProps (props : Givens) (scope : Scope) : List String :=
  (props.filter fun prop => (prop.2.writtenValue? scope prop.1).any (Value.isAttributeOf prop.1)).map (·.1)

/-- A property is in the start tag, under its name there, if its value is one of an attribute. -/
theorem attributeAs?_bind_node? (prop : String) (value : Value) :
    ((value.attributeAs? prop).bind fun attr => attr.2.node? attr.1).map (·.name) =
      if value.isAttributeOf prop then some (attributeName prop) else none := by
  unfold Value.attributeAs? Value.isAttributeOf
  cases isContent prop with
  | true => rfl
  | false =>
    cases value.toAttribute prop with
    | error obstacle => rfl
    | ok attr => cases attr <;> rfl

/-- The names in a start tag are those of the attributes of the properties written there. -/
theorem map_name_nodeAttributes (props : Givens) (scope : Scope) :
    (nodeAttributes (props.attributes scope)).map (·.name) = (props.attributeProps scope).map attributeName := by
  rw [nodeAttributes, Givens.attributes, List.filterMap_filterMap, List.map_filterMap, Givens.attributeProps, List.map_map,
    ← List.filterMap_eq_map, List.filterMap_filter]
  refine List.filterMap_congr fun prop _ => ?_
  cases prop.2.writtenValue? scope prop.1 with
  | none => rfl
  | some value => exact attributeAs?_bind_node? prop.1 value

namespace Primitive

variable {p : Primitive} {children : List (Option Rendered)} {rendered : Rendered}

/-- The markup of a primitive starts with a start tag that holds its attributes. -/
theorem hasStartTag_attempt (hwell : p.WellFormed) (h : p.attempt children scope = .ok rendered) :
    HasStartTag rendered.html.toList p.tag (nodeAttributes (p.props.attributes scope)) := by
  obtain ⟨markup, -, hrender⟩ := bind_eq_ok_iff.1 h
  refine ⟨isTagChar_of_isTagName hwell.tag, proper_nodeAttributes scope hwell, _, endsTag_ending p.tag (p.inner markup scope), ?_⟩
  rw [toList_html_render hrender, writtenAttributes_eq]
  simp

/-- The markup of a primitive that passes its checks starts with exactly one start tag, and that has the attributes of the
properties that are written there. It names an attribute twice, in whatever case, exactly if two of these properties are known
under one name. -/
theorem attempt_startTag_iff (hchecked : p.failures = []) (h : p.attempt children scope = .ok rendered) :
    ∃ attributes, HasStartTag rendered.html.toList p.tag attributes ∧
      (∀ tag others, HasStartTag rendered.html.toList tag others → tag = p.tag ∧ others = attributes) ∧
      attributes.map (·.name) = (p.props.attributeProps scope).map attributeName ∧
      ((attributes.map fun attr => foldCase attr.name).Nodup ↔
        (p.props.attributeProps scope).Pairwise fun prop other => knownAs prop ≠ knownAs other) := by
  have hstart := hasStartTag_attempt (failures_eq_nil_iff.1 hchecked) h
  have hnames := map_name_nodeAttributes p.props scope
  refine ⟨_, hstart, fun tag others hothers => hstart.unique hothers, hnames, ?_⟩
  have hknown : (nodeAttributes (p.props.attributes scope)).map (fun attr => foldCase attr.name) =
      (p.props.attributeProps scope).map knownAs := by
    have hfolded := congrArg (List.map foldCase) hnames
    rw [List.map_map, List.map_map] at hfolded
    exact hfolded.trans (List.map_congr_left fun prop _ => foldCase_attributeName prop)
  rw [hknown, List.Nodup, List.pairwise_map]

/-- Markup that an attempt gives is that of a rendered primitive. -/
theorem exists_attempt_of_html {html : String} (h : (p.attempt children scope).toOption.map (·.html) = some html) :
    ∃ rendered, p.attempt children scope = .ok rendered ∧ rendered.html = html := by
  cases hattempt : p.attempt children scope with
  | ok rendered =>
    rw [hattempt] at h
    exact ⟨rendered, rfl, Option.some.inj h⟩
  | error reason =>
    rw [hattempt] at h
    cases h

/-- A label whose properties differ in more than the names under which their attributes are known. -/
def nameLabel : Primitive :=
  (((new "label" "label").withProp "className" (.literal (.string "wide"))).withProp "classname" (.literal (.bool true))).withProp
    "htmlFor" (.literal (.string "name"))

/-- A property that is respelled has nothing to do with one that spells its name in another case. -/
theorem nameLabel_names_once : nameLabel.failures = [] ∧ ∃ rendered, nameLabel.attempt [] [nameLabel.layer] = .ok rendered ∧
    rendered.html = "<label class=\"wide\" classname for=\"name\"></label>" ∧
    ∃ attributes, HasStartTag rendered.html.toList "label" attributes ∧
      attributes.map (·.name) = ["class", "classname", "for"] ∧ (attributes.map fun attr => foldCase attr.name).Nodup := by
  obtain ⟨rendered, hattempt, hhtml⟩ : ∃ rendered, nameLabel.attempt [] [nameLabel.layer] = .ok rendered ∧
      rendered.html = "<label class=\"wide\" classname for=\"name\"></label>" := exists_attempt_of_html (by decide +kernel)
  have hprops : nameLabel.props.attributeProps [nameLabel.layer] = ["className", "classname", "htmlFor"] := by rfl
  obtain ⟨attributes, hstart, -, hnames, hnodup⟩ := attempt_startTag_iff (by rfl) hattempt
  rw [hprops] at hnames hnodup
  exact ⟨by rfl, rendered, hattempt, hhtml, attributes, hstart, hnames, hnodup.2 (by decide)⟩

end Primitive

/-- A paragraph with two properties for one attribute. -/
def badge : Primitive :=
  ((Primitive.new "badge" "p").withProp "className" (.literal (.string "new"))).withProp "class" (.literal (.string "sale"))

/-- A page with nothing but this paragraph. -/
def badgePage : Registry where
  route? := none
  primitives := [badge]
  nodup := by decide

/-- A registry that validation lets through may give one start tag two attributes of one name. -/
theorem badge_names_twice : badgePage.validate = .ok () ∧ badge ∈ badgePage.primitives ∧ (badge.props.map (·.1)).Nodup ∧
    ∃ rendered, badge.attempt [] [badge.layer] = .ok rendered ∧ rendered.html = "<p class=\"new\" class=\"sale\"></p>" ∧
      ∃ attributes, HasStartTag rendered.html.toList badge.tag attributes ∧
        ¬(attributes.map fun attr => foldCase attr.name).Nodup := by
  obtain ⟨rendered, hattempt, hhtml⟩ : ∃ rendered, badge.attempt [] [badge.layer] = .ok rendered ∧
      rendered.html = "<p class=\"new\" class=\"sale\"></p>" := Primitive.exists_attempt_of_html (by decide +kernel)
  have hstart := Primitive.hasStartTag_attempt (Primitive.failures_eq_nil_iff.1 (by rfl)) hattempt
  have hnames : (nodeAttributes (badge.props.attributes [badge.layer])).map (·.name) = ["class", "class"] :=
    map_name_nodeAttributes _ _
  refine ⟨by rfl, List.mem_cons_self, by decide, rendered, hattempt, hhtml, _, hstart, ?_⟩
  rw [← Function.comp_def foldCase, ← List.map_map, hnames]
  decide

end Prebake
