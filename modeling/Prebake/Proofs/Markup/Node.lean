import Prebake.Proofs.Registry.Validity

/-!
# Elements and their texts

Well-formed markup is the text of an element: a start tag with attributes, then characters and further elements, then an end
tag with the same name; or a start tag alone that ends in a slash. `Node.Proper` says which characters may stand where. A text
is the text of at most one proper node, even if more text follows it (`Node.eq_of_text_append`): each part of a node ends with
a character that cannot stand in that part.
-/

namespace Prebake.Markup

/-- An attribute in markup: a name, and between quotes a value if it has one. -/
structure NodeAttribute where
  name : String
  value? : Option String

/-- A character between tags, or an element with what stands in it. -/
inductive Node where
  | char (c : Char)
  | element (tag : String) (attributes : List NodeAttribute) (content : List Node)
  /-- An element that is ended in its start tag. -/
  | ended (tag : String) (attributes : List NodeAttribute)

namespace NodeAttribute

/-- What follows the name of an attribute. -/
def valueText (attr : NodeAttribute) : List Char :=
  match attr.value? with
  | none => []
  | some value => '=' :: '"' :: (value.toList ++ ['"'])

/-- The text of an attribute. -/
def text (attr : NodeAttribute) : List Char := ' ' :: (attr.name.toList ++ attr.valueText)

end NodeAttribute

namespace Node

mutual

/-- The text of a node. -/
def text : Node → List Char
  | char c => [c]
  | element tag attributes content =>
    '<' :: (tag.toList ++ (attributes.flatMap NodeAttribute.text ++
      '>' :: (contentText content ++ '<' :: '/' :: (tag.toList ++ ['>']))))
  | ended tag attributes => '<' :: (tag.toList ++ (attributes.flatMap NodeAttribute.text ++ [' ', '/', '>']))

/-- The text of several nodes. -/
def contentText : List Node → List Char
  | [] => []
  | node :: nodes => text node ++ contentText nodes

end

/-- Whether a node is an element. -/
def IsElement : Node → Prop
  | char _ => False
  | element .. | ended .. => True

end Node

/-! ## Which characters stand where -/

/-- The characters of tags. -/
def IsTagChar (c : Char) : Prop := IsLetter c ∨ IsDecimalDigit c ∨ c = '-'

instance : DecidablePred IsTagChar := fun c =>
  inferInstanceAs (Decidable ((('A' ≤ c ∧ c ≤ 'Z') ∨ ('a' ≤ c ∧ c ≤ 'z')) ∨ ('0' ≤ c ∧ c ≤ '9') ∨ c = '-'))

/-- The names of tags consist of letters, digits and hyphens. -/
theorem isTagChar_of_isTagName {tag : String} (h : IsTagName tag) : ∀ c ∈ tag.toList, IsTagChar c := by
  obtain ⟨first, rest, hchars, hfirst, hrest⟩ := h
  rw [hchars]
  intro c hc
  rcases List.mem_cons.1 hc with rfl | hc
  · exact Or.inl hfirst
  · exact hrest c hc

/-- The characters of names of attributes. -/
def IsAttributeNameChar (c : Char) : Prop := isBlank c = false ∧ c ∉ ['"', '\'', '<', '>', '/', '=']

instance : DecidablePred IsAttributeNameChar := fun c =>
  inferInstanceAs (Decidable (isBlank c = false ∧ c ∉ ['"', '\'', '<', '>', '/', '=']))

/-- The characters that stand between tags and between quotes. -/
def IsTextChar (c : Char) : Prop := c ∉ ['<', '>', '"', '\'']

instance : DecidablePred IsTextChar := fun c => inferInstanceAs (Decidable (c ∉ ['<', '>', '"', '\'']))

/-- An attribute with a name, and with characters only where they may stand. -/
structure NodeAttribute.Proper (attr : NodeAttribute) : Prop where
  nonempty : attr.name ≠ ""
  name : ∀ c ∈ attr.name.toList, IsAttributeNameChar c
  value : ∀ value ∈ attr.value?, ∀ c ∈ value.toList, IsTextChar c

/-- A node with characters only where they may stand. -/
inductive Node.Proper : Node → Prop where
  | char {c : Char} : IsTextChar c → Proper (.char c)
  | element {tag : String} {attributes : List NodeAttribute} {content : List Node} :
    (∀ c ∈ tag.toList, IsTagChar c) → (∀ attr ∈ attributes, attr.Proper) → (∀ node ∈ content, Proper node) →
      Proper (.element tag attributes content)
  | ended {tag : String} {attributes : List NodeAttribute} :
    (∀ c ∈ tag.toList, IsTagChar c) → (∀ attr ∈ attributes, attr.Proper) → Proper (.ended tag attributes)

/-- Words of one class of characters are the same if what follows them starts with characters of none of that class. -/
theorem eq_of_append_eq {P : Char → Prop} {first second s t : List Char} {c d : Char} (hfirst : ∀ c ∈ first, P c)
    (hsecond : ∀ c ∈ second, P c) (hc : ¬P c) (hd : ¬P d) (h : first ++ c :: s = second ++ d :: t) :
    first = second ∧ c = d ∧ s = t := by
  induction first generalizing second with
  | nil =>
    cases second with
    | nil =>
      obtain ⟨hcd, hst⟩ := List.cons.inj h
      exact ⟨rfl, hcd, hst⟩
    | cons e second =>
      have hce : c = e := (List.cons.inj h).1
      exact absurd (hce ▸ hsecond e List.mem_cons_self) hc
  | cons e first ih =>
    cases second with
    | nil =>
      have hed : e = d := (List.cons.inj h).1
      exact absurd (hed ▸ hfirst e List.mem_cons_self) hd
    | cons e' second =>
      obtain ⟨hee, hrest⟩ := List.cons.inj h
      obtain ⟨hsame, hcd, hst⟩ := ih (fun c hc => hfirst c (List.mem_cons_of_mem _ hc))
        (fun c hc => hsecond c (List.mem_cons_of_mem _ hc)) hrest
      exact ⟨by rw [hee, hsame], hcd, hst⟩

/-! ## Attributes -/

/-- What follows the attributes of a start tag. -/
def EndsTag (s : List Char) : Prop := (∃ rest, s = '>' :: rest) ∨ ∃ rest, s = ' ' :: '/' :: rest

namespace NodeAttribute

variable {attr other : NodeAttribute} {attributes others : List NodeAttribute} {s t : List Char}

/-- After the name and the value of an attribute the next attribute follows, or the end of the start tag. -/
theorem exists_cons_of_endsTag (attributes : List NodeAttribute) (hs : EndsTag s) :
    ∃ c rest, attributes.flatMap text ++ s = c :: rest ∧ (c = ' ' ∨ c = '>') := by
  cases attributes with
  | nil =>
    rcases hs with ⟨rest, rfl⟩ | ⟨rest, rfl⟩
    · exact ⟨'>', rest, rfl, Or.inr rfl⟩
    · exact ⟨' ', '/' :: rest, rfl, Or.inl rfl⟩
  | cons attr attributes => exact ⟨' ', _, rfl, Or.inl rfl⟩

/-- What follows the name of an attribute starts with a character that no name holds. -/
theorem exists_cons_valueText (attr : NodeAttribute) {c : Char} (rest : List Char) (hc : c = ' ' ∨ c = '>') :
    ∃ d after, attr.valueText ++ c :: rest = d :: after ∧ ¬IsAttributeNameChar d := by
  cases hvalue : attr.value? with
  | none =>
    refine ⟨c, rest, by rw [valueText, hvalue]; rfl, ?_⟩
    rcases hc with rfl | rfl
    · decide
    · decide
  | some value => exact ⟨'=', _, by rw [valueText, hvalue]; rfl, by decide⟩

/-- The value of an attribute is known from its text, whatever other attribute or end of a tag follows. -/
theorem eq_of_valueText_append (hattr : attr.Proper) (hother : other.Proper) {c d : Char} (hc : c = ' ' ∨ c = '>')
    (hd : d = ' ' ∨ d = '>') (h : attr.valueText ++ c :: s = other.valueText ++ d :: t) :
    attr.value? = other.value? ∧ c :: s = d :: t := by
  unfold valueText at h
  cases hvalue : attr.value? with
  | none =>
    cases hvalue' : other.value? with
    | none =>
      rw [hvalue, hvalue'] at h
      exact ⟨rfl, h⟩
    | some value =>
      rw [hvalue, hvalue'] at h
      have hsame : c = '=' := (List.cons.inj h).1
      rcases hc with rfl | rfl
      · exact absurd hsame (by decide)
      · exact absurd hsame (by decide)
  | some value =>
    cases hvalue' : other.value? with
    | none =>
      rw [hvalue, hvalue'] at h
      have hsame : '=' = d := (List.cons.inj h).1
      rcases hd with rfl | rfl
      · exact absurd hsame (by decide)
      · exact absurd hsame (by decide)
    | some value' =>
      rw [hvalue, hvalue'] at h
      simp only [List.cons_append, List.append_assoc, List.nil_append, List.cons.injEq, true_and] at h
      have hquote : ¬IsTextChar '"' := by decide
      obtain ⟨hsame, -, hrest⟩ := eq_of_append_eq (hattr.value value hvalue) (hother.value value' hvalue') hquote hquote h
      exact ⟨by rw [String.toList_inj.1 hsame], hrest⟩

/-- A slash after a blank starts no attribute. -/
theorem not_endsTag_text_append (hattr : attr.Proper) : ¬EndsTag (attr.text ++ s) := by
  rintro (⟨rest, h⟩ | ⟨rest, h⟩)
  · exact absurd (List.cons.inj h).1 (by decide)
  · have hname : attr.name.toList ≠ [] := fun hnil => hattr.nonempty (String.toList_inj.1 hnil)
    obtain ⟨first, more, hfirst⟩ := List.exists_cons_of_ne_nil hname
    have hslash := (List.cons.inj h).2
    rw [hfirst] at hslash
    have hsame : first = '/' := (List.cons.inj hslash).1
    have hchar := (hattr.name first (hfirst ▸ List.mem_cons_self)).2
    rw [hsame] at hchar
    exact hchar (by decide)

/-- The attributes of a start tag are known from their text. -/
theorem eq_of_flatMap_text_append (hattributes : ∀ attr ∈ attributes, attr.Proper) (hothers : ∀ attr ∈ others, attr.Proper)
    (hs : EndsTag s) (ht : EndsTag t) (h : attributes.flatMap text ++ s = others.flatMap text ++ t) :
    attributes = others ∧ s = t := by
  induction attributes generalizing others with
  | nil =>
    cases others with
    | nil => exact ⟨rfl, h⟩
    | cons other others =>
      rw [List.flatMap_nil, List.nil_append, List.flatMap_cons, List.append_assoc] at h
      exact absurd (h ▸ hs) (not_endsTag_text_append (hothers other List.mem_cons_self))
  | cons attr attributes ih =>
    cases others with
    | nil =>
      rw [List.flatMap_nil, List.nil_append, List.flatMap_cons, List.append_assoc] at h
      exact absurd (h ▸ ht) (not_endsTag_text_append (hattributes attr List.mem_cons_self))
    | cons other others =>
      have hattr := hattributes attr List.mem_cons_self
      have hother := hothers other List.mem_cons_self
      -- whatever follows an attribute starts with a character that is no part of one
      obtain ⟨c, rest, hrest, hc⟩ := exists_cons_of_endsTag attributes hs
      obtain ⟨d, rest', hrest', hd⟩ := exists_cons_of_endsTag others ht
      simp only [List.flatMap_cons, text, List.cons_append, List.append_assoc, List.cons.injEq, true_and, hrest, hrest'] at h
      obtain ⟨c', after, hafter, hc'⟩ := attr.exists_cons_valueText rest hc
      obtain ⟨d', after', hafter', hd'⟩ := other.exists_cons_valueText rest' hd
      rw [hafter, hafter'] at h
      -- so the names end together, then the values, and the rest is left to the induction
      obtain ⟨hname, hsame, hvalues⟩ := eq_of_append_eq hattr.name hother.name hc' hd' h
      rw [hsame, hvalues, ← hafter'] at hafter
      obtain ⟨hvalue, hmore⟩ := eq_of_valueText_append hattr hother hc hd hafter
      rw [← hrest, ← hrest'] at hmore
      obtain ⟨hall, hst⟩ := ih (fun attr hin => hattributes attr (List.mem_cons_of_mem _ hin))
        (fun attr hin => hothers attr (List.mem_cons_of_mem _ hin)) hmore
      have hsame : attr = other := by
        cases attr
        cases other
        rw [NodeAttribute.mk.injEq]
        exact ⟨String.toList_inj.1 hname, hvalue⟩
      exact ⟨by rw [hsame, hall], hst⟩

end NodeAttribute

/-! ## Nodes -/

namespace Node

variable {s t : List Char}

/-- The text of some nodes is their texts one after the other. -/
theorem contentText_eq (nodes : List Node) : contentText nodes = nodes.flatMap text := by
  induction nodes with
  | nil => rfl
  | cons node nodes ih => rw [contentText, ih, List.flatMap_cons]

/-- Two start tags with the same text have the same name and the same attributes. -/
theorem eq_of_startTag_append {tag tag' : String} {attributes attributes' : List NodeAttribute}
    (htag : ∀ c ∈ tag.toList, IsTagChar c) (htag' : ∀ c ∈ tag'.toList, IsTagChar c)
    (hattributes : ∀ attr ∈ attributes, attr.Proper) (hattributes' : ∀ attr ∈ attributes', attr.Proper)
    (hs : EndsTag s) (ht : EndsTag t)
    (h : tag.toList ++ (attributes.flatMap NodeAttribute.text ++ s) =
      tag'.toList ++ (attributes'.flatMap NodeAttribute.text ++ t)) : tag = tag' ∧ attributes = attributes' ∧ s = t := by
  have hnot : ∀ c, c = ' ' ∨ c = '>' → ¬IsTagChar c := by
    rintro c (rfl | rfl)
    · decide
    · decide
  obtain ⟨c, rest, hrest, hc⟩ := NodeAttribute.exists_cons_of_endsTag attributes hs
  obtain ⟨d, rest', hrest', hd⟩ := NodeAttribute.exists_cons_of_endsTag attributes' ht
  rw [hrest, hrest'] at h
  obtain ⟨hsame, hcd, hmore⟩ := eq_of_append_eq htag htag' (hnot c hc) (hnot d hd) h
  rw [hcd, hmore, ← hrest'] at hrest
  obtain ⟨hall, hst⟩ := NodeAttribute.eq_of_flatMap_text_append hattributes hattributes' hs ht hrest
  exact ⟨String.toList_inj.1 hsame, hall, hst⟩

/-- A character between tags does not open a tag. -/
theorem not_isTextChar_open : ¬IsTextChar '<' := by
  decide

/-- A node does not start like an end tag. -/
theorem text_append_ne (node : Node) (hnode : node.Proper) : node.text ++ s ≠ '<' :: '/' :: t := by
  have hstart : ∀ {tag : String} {attributes : List NodeAttribute} {rest : List Char}, (∀ c ∈ tag.toList, IsTagChar c) →
      EndsTag rest → tag.toList ++ (attributes.flatMap NodeAttribute.text ++ rest) ≠ '/' :: t := by
    intro tag attributes rest htag hrest h
    obtain ⟨c, more, hmore, hc⟩ := NodeAttribute.exists_cons_of_endsTag attributes hrest
    rw [hmore] at h
    cases hchars : tag.toList with
    | nil =>
      rw [hchars] at h
      have hsame : c = '/' := (List.cons.inj h).1
      rcases hc with rfl | rfl
      · exact absurd hsame (by decide)
      · exact absurd hsame (by decide)
    | cons first others =>
      rw [hchars] at h
      have hsame : first = '/' := (List.cons.inj h).1
      have hslash : IsTagChar '/' := hsame ▸ htag first (hchars ▸ List.mem_cons_self)
      exact absurd hslash (by decide)
  intro h
  cases hnode with
  | char hc => exact not_isTextChar_open ((List.cons.inj h).1 ▸ hc)
  | element htag _ _ =>
    simp only [text, List.cons_append, List.append_assoc, List.cons.injEq, true_and] at h
    exact hstart htag (Or.inl ⟨_, rfl⟩) h
  | ended htag _ =>
    simp only [text, List.cons_append, List.append_assoc, List.cons.injEq, true_and] at h
    exact hstart htag (Or.inr ⟨_, rfl⟩) h

mutual

/-- A node is known from its text, also if more text follows. -/
theorem eq_of_text_append : ∀ {node other : Node} {s t : List Char}, node.Proper → other.Proper →
    node.text ++ s = other.text ++ t → node = other ∧ s = t
  | .char c, .char d, s, t, _, _, h => by
    obtain ⟨hcd, hst⟩ := List.cons.inj h
    exact ⟨by rw [hcd], hst⟩
  -- a character is not the one that opens a tag
  | .char c, .element .., s, t, .char hc, _, h => absurd ((List.cons.inj h).1 ▸ hc) not_isTextChar_open
  | .char c, .ended .., s, t, .char hc, _, h => absurd ((List.cons.inj h).1 ▸ hc) not_isTextChar_open
  | .element .., .char c, s, t, _, .char hc, h => absurd ((List.cons.inj h).1 ▸ hc) not_isTextChar_open
  | .ended .., .char c, s, t, _, .char hc, h => absurd ((List.cons.inj h).1 ▸ hc) not_isTextChar_open
  | .element tag attributes content, .element tag' attributes' content', s, t,
      .element htag hattributes hcontent, .element htag' hattributes' hcontent', h => by
    simp only [text, List.cons_append, List.append_assoc, List.cons.injEq, true_and] at h
    obtain ⟨rfl, rfl, hinner⟩ := eq_of_startTag_append htag htag' hattributes hattributes' (Or.inl ⟨_, rfl⟩)
      (Or.inl ⟨_, rfl⟩) h
    obtain ⟨rfl, hend⟩ := eq_of_contentText_append hcontent hcontent' (List.cons.inj hinner).2
    have hst := List.append_cancel_left hend
    exact ⟨rfl, (List.cons.inj hst).2⟩
  -- one start tag ends where the other goes on with a slash
  | .element tag attributes content, .ended tag' attributes', s, t, .element htag hattributes _,
      .ended htag' hattributes', h => by
    simp only [text, List.cons_append, List.append_assoc, List.cons.injEq, true_and] at h
    obtain ⟨-, -, hinner⟩ := eq_of_startTag_append htag htag' hattributes hattributes' (Or.inl ⟨_, rfl⟩)
      (Or.inr ⟨_, rfl⟩) h
    exact absurd (List.cons.inj hinner).1 (by decide)
  | .ended tag attributes, .element tag' attributes' content', s, t, .ended htag hattributes,
      .element htag' hattributes' _, h => by
    simp only [text, List.cons_append, List.append_assoc, List.cons.injEq, true_and] at h
    obtain ⟨-, -, hinner⟩ := eq_of_startTag_append htag htag' hattributes hattributes' (Or.inr ⟨_, rfl⟩)
      (Or.inl ⟨_, rfl⟩) h
    exact absurd (List.cons.inj hinner).1 (by decide)
  | .ended tag attributes, .ended tag' attributes', s, t, .ended htag hattributes, .ended htag' hattributes', h => by
    simp only [text, List.cons_append, List.append_assoc, List.cons.injEq, true_and] at h
    obtain ⟨rfl, rfl, hend⟩ := eq_of_startTag_append htag htag' hattributes hattributes' (Or.inr ⟨_, rfl⟩)
      (Or.inr ⟨_, rfl⟩) h
    simp only [List.cons.injEq, true_and] at hend
    exact ⟨rfl, hend⟩

/-- What stands in an element is known from the text up to its end tag. -/
theorem eq_of_contentText_append : ∀ {nodes others : List Node} {s t : List Char}, (∀ node ∈ nodes, node.Proper) →
    (∀ node ∈ others, node.Proper) → contentText nodes ++ '<' :: '/' :: s = contentText others ++ '<' :: '/' :: t →
      nodes = others ∧ s = t
  | [], [], s, t, _, _, h => by
    simp only [contentText, List.nil_append, List.cons.injEq, true_and] at h
    exact ⟨rfl, h⟩
  | [], other :: others, s, t, _, hothers, h => by
    rw [contentText, contentText, List.nil_append, List.append_assoc] at h
    exact absurd h.symm (text_append_ne other (hothers other List.mem_cons_self))
  | node :: nodes, [], s, t, hnodes, _, h => by
    rw [contentText, contentText, List.nil_append, List.append_assoc] at h
    exact absurd h (text_append_ne node (hnodes node List.mem_cons_self))
  | node :: nodes, other :: others, s, t, hnodes, hothers, h => by
    rw [contentText, contentText, List.append_assoc, List.append_assoc] at h
    obtain ⟨rfl, hrest⟩ := eq_of_text_append (hnodes node List.mem_cons_self) (hothers other List.mem_cons_self) h
    obtain ⟨rfl, hst⟩ := eq_of_contentText_append (fun node hin => hnodes node (List.mem_cons_of_mem _ hin))
      (fun node hin => hothers node (List.mem_cons_of_mem _ hin)) hrest
    exact ⟨rfl, hst⟩

end

end Node

end Prebake.Markup
