import Prebake.Proofs.Registry.Cycles
import Prebake.Registry.Validation

/-!
# What validation accepts

A registry is well formed if its primitives form a forest (`IsForest`) and each of them can be written into markup
(`Primitive.WellFormed`). Neither notion speaks of the checks: the first is about the two kinds of links and about
cycles, the second about characters and about how values are given. Each check finds nothing exactly if its part of the
notion holds.
-/

namespace Prebake

/-! ## Well-formed primitives -/

/-- A letter of ASCII. -/
def IsLetter (c : Char) : Prop := ('A' ≤ c ∧ c ≤ 'Z') ∨ ('a' ≤ c ∧ c ≤ 'z')

/-- A digit of ASCII. -/
def IsDecimalDigit (c : Char) : Prop := '0' ≤ c ∧ c ≤ '9'

/-- A tag is a letter, followed by letters, digits and hyphens. -/
def IsTagName (tag : String) : Prop :=
  ∃ (first : Char) (rest : List Char), tag.toList = first :: rest ∧ IsLetter first ∧
    ∀ c ∈ rest, IsLetter c ∨ IsDecimalDigit c ∨ c = '-'

/-- The name of a property is not empty and free of white space, quotes, angle brackets, slashes, equals signs and control
characters up to U+001F. -/
def IsPropertyName (name : String) : Prop :=
  name ≠ "" ∧ ∀ c ∈ name.toList, isBlank c = false ∧ c ∉ ['"', '\'', '<', '>', '/', '='] ∧ 0x1F < c.toNat

/-- Nothing is given by an unclassified expression. -/
def Givens.Classified (givens : Givens) : Prop := ∀ name source, (name, Given.unclassified source) ∉ givens

/-- A primitive that can be written: its tag and the names of its properties are in order, and off the primary branch
nothing is given by an unclassified expression. -/
structure Primitive.WellFormed (p : Primitive) : Prop where
  tag : IsTagName p.tag
  names : ∀ name given, (name, given) ∈ p.props → IsPropertyName name
  classified : p.onPrimaryBranch = false → Givens.Classified p.props ∧ Givens.Classified p.bindings

theorem isUpper_iff {c : Char} : c.isUpper = true ↔ 'A' ≤ c ∧ c ≤ 'Z' := by
  show decide (c.val ≥ 65 ∧ c.val ≤ 90) = true ↔ _
  rw [decide_eq_true_eq]
  rfl

theorem isLower_iff {c : Char} : c.isLower = true ↔ 'a' ≤ c ∧ c ≤ 'z' := by
  show (decide (c.val ≥ 97) && decide (c.val ≤ 122)) = true ↔ _
  rw [Bool.and_eq_true, decide_eq_true_eq, decide_eq_true_eq]
  rfl

theorem isDigit_iff {c : Char} : c.isDigit = true ↔ IsDecimalDigit c := by
  show (decide (c.val ≥ 48) && decide (c.val ≤ 57)) = true ↔ _
  rw [Bool.and_eq_true, decide_eq_true_eq, decide_eq_true_eq]
  rfl

theorem isAlpha_iff {c : Char} : c.isAlpha = true ↔ IsLetter c := by
  show (c.isUpper || c.isLower) = true ↔ _
  rw [Bool.or_eq_true, isUpper_iff, isLower_iff]
  rfl

theorem isAlphanum_iff {c : Char} : c.isAlphanum = true ↔ IsLetter c ∨ IsDecimalDigit c := by
  show (c.isAlpha || c.isDigit) = true ↔ _
  rw [Bool.or_eq_true, isAlpha_iff, isDigit_iff]

/-- The check of tags accepts the names of tags. -/
theorem isTag_iff {tag : String} : isTag tag = true ↔ IsTagName tag := by
  unfold isTag IsTagName
  cases tag.toList with
  | nil => simp
  | cons first rest => simp [isAlpha_iff, isAlphanum_iff, or_assoc]

/-- The characters of names are neither blanks nor controls nor any that end a name. -/
theorem isNameChar_iff {c : Char} :
    isNameChar c = true ↔ isBlank c = false ∧ c ∉ ['"', '\'', '<', '>', '/', '='] ∧ 0x1F < c.toNat := by
  simp only [isNameChar, Bool.not_eq_true', Bool.or_eq_false_iff, beq_eq_false_iff_ne, decide_eq_false_iff_not,
    List.mem_cons, List.not_mem_nil, or_false, not_or]
  constructor
  · rintro ⟨⟨⟨⟨⟨⟨⟨h0, h1⟩, h2⟩, h3⟩, h4⟩, h5⟩, h6⟩, h7⟩
    exact ⟨h0, ⟨h1, h2, h3, h4, h5, h6⟩, by omega⟩
  · rintro ⟨h0, ⟨h1, h2, h3, h4, h5, h6⟩, h7⟩
    exact ⟨⟨⟨⟨⟨⟨⟨h0, h1⟩, h2⟩, h3⟩, h4⟩, h5⟩, h6⟩, by omega⟩

/-- The check of properties accepts their names. -/
theorem isAttributeName_iff {name : String} : isAttributeName name = true ↔ IsPropertyName name := by
  unfold isAttributeName IsPropertyName
  simp only [Bool.and_eq_true, List.all_eq_true, isNameChar_iff, Bool.not_eq_true', ne_eq]
  rw [← Bool.not_eq_true, String.isEmpty_iff]

/-- What is not classified has a source and nothing else. -/
theorem Given.isUnclassified_iff {given : Given} :
    given.isUnclassified = true ↔ ∃ source, given = .unclassified source := by
  cases given <;> simp [isUnclassified]

/-- Nothing is wrong with a primitive by itself exactly if it is well formed. -/
theorem Primitive.failures_eq_nil_iff {p : Primitive} : p.failures = [] ↔ p.WellFormed := by
  have hprops : (∀ name given, (name, given) ∈ p.props → p.propFailures name given = []) ↔
      (∀ name given, (name, given) ∈ p.props → IsPropertyName name) ∧
        (p.onPrimaryBranch = false → Givens.Classified p.props) := by
    simp only [propFailures, List.append_eq_nil_iff, ite_eq_left_iff, ite_eq_right_iff, List.cons_ne_nil, imp_false,
      not_not, Bool.and_eq_true, Bool.not_eq_true', isAttributeName_iff, Given.isUnclassified_iff, not_and, not_exists]
    constructor
    · intro h
      refine ⟨fun name given hin => (h name given hin).1, fun hoff name source hin => ?_⟩
      exact (h name _ hin).2 hoff source rfl
    · rintro ⟨hnames, hclassified⟩ name given hin
      refine ⟨hnames name given hin, fun hoff source hgiven => ?_⟩
      exact hclassified hoff name source (hgiven ▸ hin)
  have hbindings : (∀ name given, (name, given) ∈ p.bindings → p.bindingFailures name given = []) ↔
      (p.onPrimaryBranch = false → Givens.Classified p.bindings) := by
    simp only [bindingFailures, ite_eq_right_iff, List.cons_ne_nil, imp_false, Bool.and_eq_true, Bool.not_eq_true',
      Given.isUnclassified_iff, not_and, not_exists]
    constructor
    · intro h hoff name source hin
      exact h name _ hin hoff source rfl
    · intro h name given hin hoff source hgiven
      exact h hoff name source (hgiven ▸ hin)
  have htag : (if isTag p.tag then [] else [Failure.invalidTag p.id p.tag]) = [] ↔ IsTagName p.tag := by
    simp [isTag_iff]
  simp only [failures, List.append_eq_nil_iff, List.flatMap_eq_nil_iff, Prod.forall, htag, hprops, hbindings]
  constructor
  · rintro ⟨⟨htag, hnames, hprops⟩, hbindings⟩
    exact ⟨htag, hnames, fun hoff => ⟨hprops hoff, hbindings hoff⟩⟩
  · intro h
    exact ⟨⟨h.tag, h.names, fun hoff => (h.classified hoff).1⟩, fun hoff => (h.classified hoff).2⟩

namespace Registry

/-! ## Forests -/

/-- The primitives of a registry form a forest. -/
structure IsForest (registry : Registry) : Prop where
  /-- Every listed child is registered. -/
  children_registered : ∀ p ∈ registry.primitives, ∀ child ∈ p.children, child ∈ registry.ids
  /-- Every declared parent is registered. -/
  parents_registered : ∀ p ∈ registry.primitives, ∀ parent, p.parent? = some parent → parent ∈ registry.ids
  /-- No id is listed twice, be it by one primitive or by two. -/
  listed_once : (registry.primitives.flatMap (·.children)).Nodup
  /-- A primitive lists exactly those that declare it as their parent. -/
  lists_iff : ∀ p ∈ registry.primitives, ∀ c ∈ registry.primitives, c.id ∈ p.children ↔ c.parent? = some p.id
  /-- No way along the lists of children leads back to where it starts. -/
  acyclic : ∀ id, ¬Relation.TransGen registry.Lists id id

/-- A registry that can be rendered: a forest of well-formed primitives. -/
structure WellFormed (registry : Registry) : Prop where
  forest : registry.IsForest
  primitives : ∀ p ∈ registry.primitives, p.WellFormed

variable {registry : Registry}

/-- No reference dangles exactly if all that is referred to is registered. -/
theorem referenceFailures_eq_nil_iff : registry.referenceFailures = [] ↔
    (∀ p ∈ registry.primitives, ∀ child ∈ p.children, child ∈ registry.ids) ∧
      ∀ p ∈ registry.primitives, ∀ parent, p.parent? = some parent → parent ∈ registry.ids := by
  simp only [referenceFailures, List.flatMap_eq_nil_iff, List.map_eq_nil_iff, List.filter_eq_nil_iff,
    Primitive.references, List.mem_append, Option.mem_toList, Bool.not_eq_true', Bool.not_eq_false, contains_iff]
  constructor
  · intro h
    exact ⟨fun p hp child hchild => h p hp child (Or.inl hchild), fun p hp parent hparent => h p hp parent (Or.inr hparent)⟩
  · rintro ⟨hchildren, hparents⟩ p hp id (hid | hid)
    · exact hchildren p hp id hid
    · exact hparents p hp id hid

/-! ## Links -/

/-- There is a link for each child that a primitive lists. -/
theorem mem_links {child listedBy : String} :
    (child, listedBy) ∈ registry.links ↔ registry.Lists listedBy child := by
  simp only [links, List.mem_flatMap, List.mem_map, Prod.mk.injEq, Lists]
  constructor
  · rintro ⟨p, hp, _, hchild, rfl, rfl⟩
    exact ⟨p, hp, rfl, hchild⟩
  · rintro ⟨p, hp, rfl, hchild⟩
    exact ⟨p, hp, child, hchild, rfl, rfl⟩

/-- The children in the links are those in the lists of all primitives, in order. -/
theorem links_fst (registry : Registry) : registry.links.map (·.1) = registry.primitives.flatMap (·.children) := by
  simp [links, List.map_flatMap, Function.comp_def]

/-- The parent that an id declares. -/
def declared? (registry : Registry) (id : String) : Option String := (registry.find? id).bind (·.parent?)

theorem declared?_id {p : Primitive} (hp : p ∈ registry.primitives) : registry.declared? p.id = p.parent? := by
  simp [declared?, find?_of_mem hp]

/-- Nothing is wrong with some links exactly if each child is listed once, counting the links before, and declares the
primitive that lists it. -/
theorem linkFailures_eq_nil_iff {earlier links : List (String × String)} :
    registry.linkFailures earlier links = [] ↔
      (∀ link ∈ links, link.1 ∉ earlier.map (·.1) ∧ registry.declared? link.1 = some link.2) ∧
        (links.map (·.1)).Nodup := by
  induction links generalizing earlier with
  | nil => simp [linkFailures]
  | cons link rest ih =>
    obtain ⟨child, listedBy⟩ := link
    -- a single link is fine if its child was not listed before and declares who lists it
    have hlink : (registry.linkFailure? earlier child listedBy).toList = [] ↔
        child ∉ earlier.map (·.1) ∧ registry.declared? child = some listedBy := by
      have hlookup : earlier.lookup child = none ↔ child ∉ earlier.map (·.1) := by
        simp only [List.lookup_eq_none_iff, List.mem_map, not_exists, not_and, bne_iff_ne, ne_eq]
        exact ⟨fun h link hin same => h link hin same.symm, fun h link hin same => h link hin same.symm⟩
      rw [← hlookup]
      unfold linkFailure?
      cases earlier.lookup child with
      | some first => simp
      | none => simp [declared?]
    rw [linkFailures, List.append_eq_nil_iff, hlink, ih]
    simp only [List.map_cons, List.mem_cons, List.nodup_cons, forall_eq_or_imp, not_or, List.mem_map]
    constructor
    · rintro ⟨hfirst, hrest, hnodup⟩
      refine ⟨⟨hfirst, fun link hin => ⟨(hrest link hin).1.2, (hrest link hin).2⟩⟩, ?_, hnodup⟩
      rintro ⟨link, hin, same⟩
      exact (hrest link hin).1.1 same
    · rintro ⟨⟨hfirst, hrest⟩, hfresh, hnodup⟩
      refine ⟨hfirst, fun link hin => ⟨⟨fun same => hfresh ⟨link, hin, same⟩, (hrest link hin).1⟩, (hrest link hin).2⟩,
        hnodup⟩

/-- No primitive is missing from the lists exactly if each that declares a parent is listed. -/
theorem unlistedFailures_eq_nil_iff : registry.unlistedFailures = [] ↔
    ∀ p ∈ registry.primitives, ∀ parent, p.parent? = some parent → ∃ listedBy, registry.Lists listedBy p.id := by
  have hlisted : ∀ id, registry.links.any (·.1 == id) = true ↔ ∃ listedBy, registry.Lists listedBy id := by
    intro id
    simp only [List.any_eq_true, beq_iff_eq, Prod.exists, mem_links]
    constructor
    · rintro ⟨_, listedBy, hlists, rfl⟩
      exact ⟨listedBy, hlists⟩
    · rintro ⟨listedBy, hlists⟩
      exact ⟨id, listedBy, hlists, rfl⟩
  simp only [unlistedFailures, List.filterMap_eq_nil_iff]
  refine forall₂_congr fun p _ => ?_
  cases p.parent? with
  | none => simp
  | some parent => simp [hlisted]

/-- Where all that is referred to is registered, nothing is wrong with children and parents exactly if no id is listed
twice and the two kinds of links agree. -/
theorem parentFailures_eq_nil_iff
    (hparents : ∀ p ∈ registry.primitives, ∀ parent, p.parent? = some parent → parent ∈ registry.ids)
    (hchildren : ∀ p ∈ registry.primitives, ∀ child ∈ p.children, child ∈ registry.ids) :
    registry.parentFailures = [] ↔ (registry.primitives.flatMap (·.children)).Nodup ∧
      ∀ p ∈ registry.primitives, ∀ c ∈ registry.primitives, c.id ∈ p.children ↔ c.parent? = some p.id := by
  simp only [parentFailures, List.append_eq_nil_iff, linkFailures_eq_nil_iff, unlistedFailures_eq_nil_iff, links_fst,
    List.map_nil, List.not_mem_nil, not_false_eq_true, true_and, Prod.forall, mem_links]
  constructor
  · rintro ⟨⟨hdeclared, hnodup⟩, hlisted⟩
    refine ⟨hnodup, fun p hp c hc => ⟨fun h => ?_, fun h => ?_⟩⟩
    · rw [← declared?_id hc]
      exact hdeclared c.id p.id ⟨p, hp, rfl, h⟩
    · obtain ⟨listedBy, q, hq, rfl, hin⟩ := hlisted c hc p.id h
      have hparent := hdeclared c.id q.id ⟨q, hq, rfl, hin⟩
      rw [declared?_id hc, h] at hparent
      rwa [eq_of_id_eq hp hq (Option.some.inj hparent)]
  · rintro ⟨hnodup, hiff⟩
    refine ⟨⟨?_, hnodup⟩, ?_⟩
    · rintro child _ ⟨p, hp, rfl, hchild⟩
      obtain ⟨c, hc, rfl⟩ := mem_ids.1 (hchildren p hp child hchild)
      rw [declared?_id hc]
      exact (hiff p hp c hc).1 hchild
    · intro c hc parent hparent
      obtain ⟨p, hp, rfl⟩ := mem_ids.1 (hparents c hc parent hparent)
      exact ⟨p.id, p, hp, rfl, (hiff p hp c hc).2 hparent⟩

/-! ## The whole of validation -/

/-- The checks of the primitives find nothing if all of them are well formed. -/
theorem flatMap_failures_eq_nil_iff :
    registry.primitives.flatMap Primitive.failures = [] ↔ ∀ p ∈ registry.primitives, p.WellFormed := by
  simp [List.flatMap_eq_nil_iff, Primitive.failures_eq_nil_iff]

/-- The checks find nothing wrong with a well-formed registry. -/
theorem WellFormed.failures_eq_nil (h : registry.WellFormed) : registry.failures = [] := by
  have hreferences := referenceFailures_eq_nil_iff.2 ⟨h.forest.children_registered, h.forest.parents_registered⟩
  have hparents := (parentFailures_eq_nil_iff h.forest.parents_registered h.forest.children_registered).2
    ⟨h.forest.listed_once, h.forest.lists_iff⟩
  simp [failures, hreferences, hparents, cycles_eq_nil_iff.2 h.forest.acyclic,
    flatMap_failures_eq_nil_iff.2 h.primitives]

/-- A registry with which the checks find nothing wrong is well formed. -/
theorem wellFormed_of_failures_eq_nil (h : registry.failures = []) : registry.WellFormed := by
  unfold failures at h
  by_cases hreferences : registry.referenceFailures = []
  · obtain ⟨hchildren, hparents⟩ := referenceFailures_eq_nil_iff.1 hreferences
    simp only [hreferences, List.isEmpty_nil, if_true, List.append_eq_nil_iff, List.map_eq_nil_iff] at h
    obtain ⟨⟨hlinks, hcycles⟩, hown⟩ := h
    obtain ⟨hnodup, hiff⟩ := (parentFailures_eq_nil_iff hparents hchildren).1 hlinks
    exact ⟨⟨hchildren, hparents, hnodup, hiff, cycles_eq_nil_iff.1 hcycles⟩, flatMap_failures_eq_nil_iff.1 hown⟩
  · simp [hreferences] at h

/-- A registry is accepted only if nothing at all is wrong with it. -/
theorem failures_eq_nil_of_validate (h : registry.validate = .ok ()) : registry.failures = [] := by
  unfold validate at h
  cases hfailures : registry.failures with
  | nil => rfl
  | cons first rest => simp [hfailures] at h

/-- What is accepted is well formed. -/
theorem wellFormed_of_validate (h : registry.validate = .ok ()) : registry.WellFormed :=
  wellFormed_of_failures_eq_nil (failures_eq_nil_of_validate h)

/-- Validation accepts exactly the well-formed registries: the checks find nothing exactly if a registry is a forest of
well-formed primitives, and only then it is let through. -/
theorem validate_accepts_iff_wellFormed (registry : Registry) :
    (registry.failures = [] ↔ registry.WellFormed) ∧ (registry.validate = .ok () ↔ registry.WellFormed) := by
  refine ⟨⟨wellFormed_of_failures_eq_nil, WellFormed.failures_eq_nil⟩, ⟨wellFormed_of_validate, fun h => ?_⟩⟩
  simp [validate, h.failures_eq_nil]

end Registry

end Prebake
