import Prebake.Proofs.Markup.Node
import Prebake.Proofs.Outcome

/-!
# The structure of markup

Whatever values are written into it, the markup of a primitive is the text of one proper element only, and the elements in it
are those of the primitive and of all primitives below it, in document order (`resolve_markup_unambiguous`). Values are written
with characters that neither open nor end a tag or a quote (`isTextChar_writtenSegments`); names and tags are those that
validation lets through.
-/

namespace Prebake

open Marker Markup

/-! ## Text between tags and quotes -/

section TextChars

variable {c : Char}

/-- The characters of markers neither open nor end a tag or a quote. -/
theorem isTextChar_of_isMarkerChar (h : isMarkerChar c = true) : IsTextChar c := by
  intro hc
  simp only [List.mem_cons, List.not_mem_nil, or_false] at hc
  rcases hc with rfl | rfl | rfl | rfl
  · exact absurd h (by decide)
  · exact absurd h (by decide)
  · exact absurd h (by decide)
  · exact absurd h (by decide)

/-- A check of all characters tells that they are text characters. -/
theorem isTextChar_of_all {s : List Char} (hs : s.all (fun c => decide (IsTextChar c)) = true) (h : c ∈ s) : IsTextChar c :=
  of_decide_eq_true (List.all_eq_true.1 hs c h)

/-- The characters of escaped text neither open nor end a tag or a quote. -/
theorem isTextChar_escapeChar {d : Char} (h : c ∈ escapeChar d) : IsTextChar c := by
  unfold escapeChar at h
  split at h
  · exact isTextChar_of_all (by decide) h
  · exact isTextChar_of_all (by decide) h
  · exact isTextChar_of_all (by decide) h
  · exact isTextChar_of_all (by decide) h
  · exact isTextChar_of_all (by decide) h
  · rename_i hlt hgt hquote hsingle
    rw [List.mem_singleton.1 h]
    intro hd
    simp only [List.mem_cons, List.not_mem_nil, or_false] at hd
    rcases hd with rfl | rfl | rfl | rfl
    · exact hlt rfl
    · exact hgt rfl
    · exact hquote rfl
    · exact hsingle rfl

/-- Escaped text holds nothing that opens or ends a tag or a quote. -/
theorem isTextChar_escape {text : String} (h : c ∈ (escape text).toList) : IsTextChar c := by
  rw [toList_escape] at h
  obtain ⟨d, -, hc⟩ := List.mem_flatMap.1 h
  exact isTextChar_escapeChar hc

/-- Neutralizing a text brings in the characters of references only. -/
theorem mem_neutralizeChars {s : List Char} (h : c ∈ neutralizeChars s) : c ∈ s ∨ c ∈ neutralizedOpening := by
  induction s using neutralize_induction with
  | hnil =>
    rw [neutralizeChars_nil] at h
    exact Or.inl h
  | hopening s ih =>
    rw [neutralizeChars_opening, List.mem_append] at h
    rcases h with hc | hc
    · exact Or.inr hc
    · exact (ih hc).imp_left fun hs => List.mem_append_right _ hs
  | hchar d s hd ih =>
    rw [neutralizeChars_cons hd, List.mem_cons] at h
    rcases h with rfl | hc
    · exact Or.inl List.mem_cons_self
    · exact (ih hc).imp_left fun hs => List.mem_cons_of_mem _ hs

/-- What is replaced right behind a marker brings the characters of two references. -/
theorem mem_neutralizeAfterMarker {escaped : String} (h : c ∈ (neutralizeAfterMarker escaped).toList) :
    c ∈ neutralizeChars escaped.toList ∨ c ∈ "&#9582;".toList := by
  rcases neutralizeAfterMarker_eq escaped with ⟨-, heq⟩ | ⟨-, d, rest, reference, hchars, heq, hreplaced⟩
  · exact Or.inl (heq ▸ h)
  · rw [heq] at h
    rw [hchars]
    rcases List.mem_append.1 h with hc | hc
    · rcases hreplaced with ⟨-, rfl⟩ | ⟨-, rfl⟩
      · exact Or.inr ((by decide : "&#95;".toList ⊆ "&#9582;".toList) hc)
      · exact Or.inr ((by decide : "&#82;".toList ⊆ "&#9582;".toList) hc)
    · exact Or.inl (List.mem_cons_of_mem _ hc)

/-- Literal text, whether after a marker or not, is written with text characters only. -/
theorem isTextChar_literalChars {text : String} {afterMarker : Bool} (h : c ∈ literalChars afterMarker text) :
    IsTextChar c := by
  have hchars : ∀ c ∈ neutralizeChars (escape text).toList, IsTextChar c := by
    intro c hc
    rcases mem_neutralizeChars hc with hc | hc
    · exact isTextChar_escape hc
    · exact isTextChar_of_all (by decide) hc
  cases afterMarker with
  | true =>
    rcases mem_neutralizeAfterMarker h with hc | hc
    · exact hchars c hc
    · exact isTextChar_of_all (by decide) hc
  | false =>
    rw [literalChars_false] at h
    exact hchars c h

/-- Parts without markup are written with text characters only. -/
theorem isTextChar_write {parts : List Part} {afterMarker : Bool} (hpure : ∀ html, Part.markup html ∉ parts)
    (h : c ∈ Part.write afterMarker parts) : IsTextChar c := by
  induction parts generalizing afterMarker with
  | nil => cases h
  | cons part parts ih =>
    have hrest : ∀ html, Part.markup html ∉ parts := fun html hin => hpure html (List.mem_cons_of_mem _ hin)
    cases part with
    | literal text =>
      rcases List.mem_append.1 h with hc | hc
      · exact isTextChar_literalChars hc
      · exact ih hrest hc
    | slot name =>
      rcases List.mem_append.1 h with hc | hc
      · exact isTextChar_of_isMarkerChar ((isMarker_ofSlot name).isMarkerChar c hc)
      · exact ih hrest hc
    | markup html => exact absurd List.mem_cons_self (hpure html)

/-- Segments are written with text characters only. -/
theorem isTextChar_writtenSegments {segments : List Segment} (h : c ∈ writtenSegments segments) : IsTextChar c :=
  isTextChar_write (markup_not_mem_merge segments) h

end TextChars

/-! ## Attributes -/

namespace Attribute

/-- An attribute as it stands in markup, if it is written at all. -/
def node? (name : String) : Attribute → Option NodeAttribute
  | omitted => none
  | nameOnly => some ⟨name, none⟩
  | quoted segments => some ⟨name, some (String.ofList (writtenSegments segments))⟩

/-- An attribute is written as the text of an attribute in an element, or as nothing. -/
theorem written_eq (name : String) (attr : Attribute) :
    attr.written name = (attr.node? name).toList.flatMap NodeAttribute.text := by
  cases attr with
  | omitted => rfl
  | nameOnly => simp [written, node?, NodeAttribute.text, NodeAttribute.valueText]
  | quoted segments => simp [written, node?, NodeAttribute.text, NodeAttribute.valueText]

/-- An attribute with the name of a property has characters only where they may stand. -/
theorem proper_of_node? {name : String} {attr : Attribute} {node : NodeAttribute} (hname : IsPropertyName name)
    (h : attr.node? name = some node) : node.Proper := by
  have hchars : ∀ c ∈ name.toList, IsAttributeNameChar c := fun c hc => ⟨(hname.2 c hc).1, (hname.2 c hc).2.1⟩
  cases attr with
  | omitted => cases h
  | nameOnly =>
    cases h
    exact ⟨hname.1, hchars, nofun⟩
  | quoted segments =>
    cases h
    refine ⟨hname.1, hchars, ?_⟩
    rintro _ ⟨⟩ c hc
    rw [String.toList_ofList] at hc
    exact isTextChar_writtenSegments hc

end Attribute

/-- An attribute has a name that may stand in markup if the property has one. -/
theorem isPropertyName_attributeName {property : String} (h : IsPropertyName property) :
    IsPropertyName (attributeName property) := by
  have hrenamed : ∀ entry ∈ renamedAttributes, isAttributeName entry.2 = true := by decide
  unfold attributeName
  cases hlookup : renamedAttributes.lookup property with
  | none => exact h
  | some name =>
    obtain ⟨first, rest, hentries, -⟩ := List.lookup_eq_some_iff.1 hlookup
    refine isAttributeName_iff.1 (hrenamed (property, name) ?_)
    rw [hentries]
    exact List.mem_append_right _ List.mem_cons_self

/-- Attributes as they stand in markup. -/
def nodeAttributes (attributes : List (String × Attribute)) : List NodeAttribute :=
  attributes.filterMap fun attr => attr.2.node? attr.1

/-- Attributes are written as the texts of those that an element has. -/
theorem writtenAttributes_eq (attributes : List (String × Attribute)) :
    writtenAttributes attributes = (nodeAttributes attributes).flatMap NodeAttribute.text := by
  induction attributes with
  | nil => rfl
  | cons attr attributes ih =>
    have hcons : writtenAttributes (attr :: attributes) = attr.2.written attr.1 ++ writtenAttributes attributes := rfl
    rw [hcons, ih, Attribute.written_eq, nodeAttributes, nodeAttributes, List.filterMap_cons]
    cases attr.2.node? attr.1 with
    | none => rfl
    | some node => simp

/-! ## Elements -/

namespace Markup.Node

mutual

/-- The elements in a node in document order, each with its tag and with the number of elements around it. -/
def elements (depth : Nat) : Node → List (Nat × String)
  | char _ => []
  | element tag _ content => (depth, tag) :: contentElements (depth + 1) content
  | ended tag _ => [(depth, tag)]

/-- The elements in several nodes. -/
def contentElements (depth : Nat) : List Node → List (Nat × String)
  | [] => []
  | node :: nodes => elements depth node ++ contentElements depth nodes

end

theorem contentElements_eq (depth : Nat) (nodes : List Node) :
    contentElements depth nodes = nodes.flatMap (elements depth) := by
  induction nodes with
  | nil => rfl
  | cons node nodes ih => rw [contentElements, ih, List.flatMap_cons]

theorem flatMap_text_char (chars : List Char) : (chars.map char).flatMap text = chars := by
  induction chars with
  | nil => rfl
  | cons c chars ih =>
    rw [List.map_cons, List.flatMap_cons, ih]
    rfl

theorem flatMap_elements_char (depth : Nat) (chars : List Char) : (chars.map char).flatMap (elements depth) = [] := by
  rw [List.flatMap_eq_nil_iff]
  intro node hnode
  obtain ⟨c, -, rfl⟩ := List.mem_map.1 hnode
  rfl

end Markup.Node

namespace Primitive

variable {p : Primitive} {children : List Rendered} {rendered : Rendered} {scope : Scope} {nodes : List Node}

/-- The attributes of a well-formed primitive are proper. -/
theorem proper_nodeAttributes (scope : Scope) (hwell : p.WellFormed) :
    ∀ attr ∈ nodeAttributes (p.props.attributes scope), attr.Proper := by
  intro attr hattr
  obtain ⟨named, hnamed, hnode⟩ := List.mem_filterMap.1 hattr
  refine Attribute.proper_of_node? ?_ hnode
  obtain ⟨⟨prop, given⟩, hprop, hfound⟩ := List.mem_filterMap.1 hnamed
  obtain ⟨value, -, hvalue⟩ := Option.bind_eq_some_iff.1 hfound
  unfold Value.attributeAs? at hvalue
  split at hvalue
  · cases hvalue
  · obtain ⟨-, -, rfl⟩ := Option.map_eq_some_iff.1 hvalue
    exact isPropertyName_attributeName (hwell.names prop given hprop)

/-- If the markup of each child is the text of a proper element, so is the markup of the primitive; the elements of the
children stand inside its own. -/
theorem exists_node_of_render (hwell : p.WellFormed) (hrender : p.render children scope = .ok rendered)
    (hproper : ∀ node ∈ nodes, node.Proper) (htext : nodes.flatMap Node.text = children.flatMap (·.html.toList)) :
    ∃ node : Node, node.IsElement ∧ node.Proper ∧ node.text = rendered.html.toList ∧
      ∀ depth, node.elements depth = (depth, p.tag) :: nodes.flatMap (Node.elements (depth + 1)) := by
  have htag := isTagChar_of_isTagName hwell.tag
  have hattributes := proper_nodeAttributes scope hwell
  rw [toList_html_render hrender, writtenAttributes_eq]
  unfold ending
  split
  · rename_i hvoid
    have hempty : p.inner children scope = [] := List.isEmpty_iff.1 (Bool.and_eq_true_iff.1 hvoid).2
    -- nothing stands inside, so there are no elements of children either
    have hnone : nodes = [] := by
      have hmarkup := (List.append_eq_nil_iff.1 hempty).2
      rw [← htext, List.flatMap_eq_nil_iff] at hmarkup
      refine List.eq_nil_iff_forall_not_mem.2 fun node hnode => ?_
      have hnil := hmarkup node hnode
      cases node <;> simp [Node.text] at hnil
    refine ⟨.ended p.tag (nodeAttributes (p.props.attributes scope)), trivial, .ended htag hattributes, ?_, ?_⟩
    · simp [Node.text]
    · intro depth
      rw [hnone]
      rfl
  · refine ⟨.element p.tag (nodeAttributes (p.props.attributes scope))
      ((writtenSegments (p.props.content scope)).map .char ++ nodes), trivial, .element htag hattributes ?_, ?_, ?_⟩
    · intro node hnode
      rcases List.mem_append.1 hnode with hnode | hnode
      · obtain ⟨c, hc, rfl⟩ := List.mem_map.1 hnode
        exact .char (isTextChar_writtenSegments hc)
      · exact hproper node hnode
    · simp [Node.text, Node.contentText_eq, Node.flatMap_text_char, htext, inner]
    · intro depth
      rw [Node.elements, Node.contentElements_eq, List.flatMap_append, Node.flatMap_elements_char, List.nil_append]

end Primitive

/-! ## Trees -/

namespace Tree

mutual

/-- The primitives in a tree in document order, each before those below it and with the number of those above it. -/
def preorder (depth : Nat) : Tree → List (Nat × Primitive)
  | node p children => (depth, p) :: preorderBelow (depth + 1) children

/-- The primitives in several trees. -/
def preorderBelow (depth : Nat) : List Tree → List (Nat × Primitive)
  | [] => []
  | tree :: trees => preorder depth tree ++ preorderBelow depth trees

end

/-- The tags of the primitives in a tree in document order, each with the number of primitives above it. -/
def outline (depth : Nat) (tree : Tree) : List (Nat × String) := (tree.preorder depth).map fun (depth, p) => (depth, p.tag)

theorem preorderBelow_eq (depth : Nat) (trees : List Tree) : preorderBelow depth trees = trees.flatMap (preorder depth) := by
  induction trees with
  | nil => rfl
  | cons tree trees ih => rw [preorderBelow, ih, List.flatMap_cons]

/-- The outline of a tree is its top, followed by the outlines of the trees below, one step deeper. -/
theorem outline_node (depth : Nat) (p : Primitive) (children : List Tree) :
    (node p children).outline depth = (depth, p.tag) :: children.flatMap (outline (depth + 1)) := by
  rw [outline, preorder, preorderBelow_eq, List.map_cons, List.map_flatMap]
  rfl

end Tree

/-- A proper element has a text, and the elements in it are those of a tree. -/
structure Markup.Node.Shows (node : Node) (html : String) (tree : Tree) : Prop where
  isElement : node.IsElement
  proper : node.Proper
  text : node.text = html.toList
  elements : ∀ depth, node.elements depth = tree.outline depth

/-- If each of several trees is shown by an element, there are elements for all of them. -/
theorem Tree.exists_nodes {state? : String → Option State} {trees : List Tree} {htmls : List String}
    (hstates : trees.map (fun tree => state? tree.top.id) = htmls.map fun html => some (.resolved html))
    (hshown : ∀ tree ∈ trees, ∀ html, state? tree.top.id = some (.resolved html) → ∃ node : Node, node.Shows html tree) :
    ∃ nodes : List Node, (∀ node ∈ nodes, node.Proper) ∧ nodes.flatMap Node.text = htmls.flatMap String.toList ∧
      ∀ depth, nodes.flatMap (Node.elements depth) = trees.flatMap (Tree.outline depth) := by
  induction trees generalizing htmls with
  | nil =>
    have hnone : htmls = [] := List.map_eq_nil_iff.1 hstates.symm
    rw [hnone]
    exact ⟨[], nofun, rfl, fun _ => rfl⟩
  | cons tree trees ih =>
    cases htmls with
    | nil => cases hstates
    | cons html htmls =>
      obtain ⟨hfirst, hrest⟩ := List.cons.inj hstates
      obtain ⟨node, hnode⟩ := hshown tree List.mem_cons_self html hfirst
      obtain ⟨nodes, hproper, htext, helements⟩ := ih hrest fun tree htree =>
        hshown tree (List.mem_cons_of_mem _ htree)
      refine ⟨node :: nodes, ?_, ?_, ?_⟩
      · intro other hother
        rcases List.mem_cons.1 hother with rfl | hother
        · exact hnode.proper
        · exact hproper other hother
      · rw [List.flatMap_cons, List.flatMap_cons, hnode.text, htext]
      · intro depth
        rw [List.flatMap_cons, List.flatMap_cons, hnode.elements, helements]

namespace Registry

variable {registry : Registry} {config : Config} {resolution : Resolution} {id html : String}

/-- The markup of the top of a whole tree shows the tree. -/
theorem exists_shows {above : List Primitive} {tree : Tree} (hresolve : registry.resolve config = .ok resolution)
    (hgrown : Tree.Grown registry above tree) (hstate : resolution.state? tree.top.id = some (.resolved html)) :
    ∃ node : Node, node.Shows html tree := by
  induction hgrown generalizing html with
  | @node p above trees hlineage hids _ ih =>
    have hp := hlineage.registered p List.mem_cons_self
    obtain ⟨q, way, children, rendered, hq, hid, rfl, hrenderedAs, -⟩ := exists_renderedAs_of_state? hresolve hstate
    obtain rfl : q = p := eq_of_id_eq hq hp hid
    have hstates : trees.map (fun tree => resolution.state? tree.top.id) =
        (children.map (·.html)).map fun html => some (.resolved html) := by
      have hchildren := hrenderedAs.children
      rw [← hids, List.map_map] at hchildren
      rw [List.map_map]
      exact hchildren
    obtain ⟨nodes, hproper, htext, helements⟩ := Tree.exists_nodes hstates fun tree htree html => ih tree htree
    rw [List.flatMap_map] at htext
    have hwell := (wellFormed_of_validate (resolve_eq_ok hresolve).1).primitives q hq
    obtain ⟨node, hisElement, hnode, hhtml, hinside⟩ :=
      Primitive.exists_node_of_render hwell hrenderedAs.render hproper htext
    refine ⟨node, hisElement, hnode, hhtml, fun depth => ?_⟩
    rw [hinside, helements, Tree.outline_node]

/-- The markup of a primitive is the text of exactly one proper element, and the elements in it, in document order, are those
of the primitive and of all primitives below it, each with its own tag and as deep as its primitive. -/
theorem resolve_markup_unambiguous (hresolve : registry.resolve config = .ok resolution)
    (hstate : resolution.state? id = some (.resolved html)) :
    ∃ p ∈ registry.primitives, p.id = id ∧ (registry.tree p).Complete registry ∧
      ∃ node : Node, node.IsElement ∧ node.Proper ∧ node.text = html.toList ∧
        (∀ other : Node, other.Proper → other.text = html.toList → other = node) ∧
        node.elements 0 = ((registry.tree p).preorder 0).map fun (depth, q) => (depth, q.tag) := by
  obtain ⟨p, -, -, -, hp, rfl, -, -, -⟩ := exists_renderedAs_of_state? hresolve hstate
  have hforest := (wellFormed_of_validate (resolve_eq_ok hresolve).1).forest
  have hgrown := hforest.grown_tree_of_mem hp
  obtain ⟨node, hnode⟩ := exists_shows hresolve hgrown ((tree_top registry p).symm ▸ hstate)
  refine ⟨p, hp, rfl, hgrown.complete, node, hnode.isElement, hnode.proper, hnode.text, ?_, hnode.elements 0⟩
  intro other hother htext
  have hsame : other.text ++ [] = node.text ++ [] := by rw [htext, hnode.text]
  exact (Node.eq_of_text_append hother hnode.proper hsame).1

/-- The page of the gallery is a `main` element with a rule and a title in it, and nothing else. -/
theorem gallery_page_unambiguous :
    ∃ resolution, gallery.resolve (Config.withPolicy {} .deferToServe) = .ok resolution ∧
      resolution.state? "page" = some (.resolved
        "<main label=\"&lt;&quot;a&quot;&gt;\"><hr hidden /><h1>__RUXY_SV_siteName__</h1></main>") ∧
      ∃ node : Node, node.IsElement ∧ node.Proper ∧ String.ofList node.text =
          "<main label=\"&lt;&quot;a&quot;&gt;\"><hr hidden /><h1>__RUXY_SV_siteName__</h1></main>" ∧
        (∀ other : Node, other.Proper → other.text = node.text → other = node) ∧
        node.elements 0 = [(0, "main"), (1, "hr"), (1, "h1")] := by
  have hpreorder : ∀ p ∈ gallery.primitives, p.id = "page" →
      (((gallery.tree p).preorder 0).map fun (depth, q) => (depth, q.tag)) = [(0, "main"), (1, "hr"), (1, "h1")] := by
    decide
  obtain ⟨p, hp, hid, -, node, hisElement, hproper, htext, hunique, helements⟩ := resolve_markup_unambiguous resolve_gallery
    state?_gallery_page
  refine ⟨_, resolve_gallery, state?_gallery_page, node, hisElement, hproper, ?_, ?_, helements.trans (hpreorder p hp hid)⟩
  · rw [htext, String.ofList_toList]
  · intro other hother hsame
    exact hunique other hother (hsame.trans htext)

end Registry

end Prebake
