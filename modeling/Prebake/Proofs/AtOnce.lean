import Prebake.Proofs.Markup.Obstacles
import Prebake.Proofs.Policies

/-!
# What is rendered at once

Scopes matter to expressions only. A primitive without expressions is rendered at the first attempt, once its children are, or
never: it is deferred for a literal that has no markup, and then no scope helps. So where nothing but slots and literals with
markup is given, all primitives are rendered in one pass and nothing ever bubbles.
-/

namespace Prebake

variable {registry : Registry} {p : Primitive} {scope : Scope} {id : String}

/-! ## Single attempts -/

namespace Primitive

/-- A primitive that has only properties that are known, and nothing that keeps one of them from being written. -/
def IsPlain (p : Primitive) : Prop := ∀ entry ∈ p.props, entry.2.isKnown = true ∧ entry.2.obstacle? entry.1 = none

instance : DecidablePred IsPlain := fun p =>
  inferInstanceAs (Decidable (∀ entry ∈ p.props, entry.2.isKnown = true ∧ entry.2.obstacle? entry.1 = none))

/-- Nothing keeps a plain primitive from being written. -/
theorem IsPlain.obstacle?_props (h : p.IsPlain) : p.props.obstacle? = none :=
  List.findSome?_eq_none_iff.2 fun entry hentry => by rw [(h entry hentry).2, Option.map_none]

/-- The children do not stand in the way if all of them have markup. -/
theorem exists_childMarkup_of_isSome {pairs : List (String × Option Rendered)}
    (h : ∀ pair ∈ pairs, pair.2.isSome = true) : ∃ markup, childMarkup pairs = .ok markup := by
  cases hmarkup : childMarkup pairs with
  | ok markup => exact ⟨markup, rfl⟩
  | error reason =>
    obtain ⟨child, rfl⟩ := childMarkup_eq_error hmarkup
    cases h _ (List.mem_of_find?_eq_some (find?_of_childMarkup_eq_error hmarkup))

/-- A plain primitive is rendered as soon as its children are, in any scope. -/
theorem IsPlain.exists_attempt (h : p.IsPlain) {known : String → Option Rendered}
    (hchildren : ∀ child ∈ p.children, (known child).isSome = true) (scope : Scope) :
    ∃ rendered, p.attempt (p.children.map known) scope = .ok rendered := by
  have hpairs : ∀ pair ∈ p.children.zip (p.children.map known), pair.2.isSome = true := by
    intro pair hpair
    obtain ⟨child, hchild, heq⟩ := List.mem_map.1 (List.of_mem_zip hpair).2
    rw [← heq]
    exact hchildren child hchild
  obtain ⟨markup, hmarkup⟩ := exists_childMarkup_of_isSome hpairs
  rw [← error?_eq_none_iff, error?_attempt hmarkup fun entry hentry => (h entry hentry).1, h.obstacle?_props]

section Leaf

variable {children : List (Option Rendered)} (hleaf : p.children = []) (hknown : ∀ entry ∈ p.props, entry.2.isKnown = true)

include hleaf hknown

/-- Without children and expressions, an attempt fails with what is wrong with the properties or not at all. -/
theorem error?_attempt_of_leaf : error? (p.attempt children scope) = p.props.obstacle? := by
  have hmarkup : childMarkup (p.children.zip children) = .ok [] := by
    rw [hleaf]
    rfl
  exact error?_attempt hmarkup hknown

/-- A primitive without children whose properties are known is deferred exactly if one of them has an obstacle. -/
theorem exists_attempt_eq_error_iff : (∃ reason, p.attempt children scope = .error reason) ↔
    ∃ entry ∈ p.props, (entry.2.obstacle? entry.1).isSome = true := by
  simp only [← error?_eq_some_iff, error?_attempt_of_leaf hleaf hknown, ← Option.isSome_iff_exists, Givens.obstacle?,
    List.findSome?_isSome_iff, Option.isSome_map]

/-- The reason is the first property with an obstacle. -/
theorem attempt_eq_error_iff {reason : Reason} : p.attempt children scope = .error reason ↔
    ∃ before prop given after obstacle, p.props = before ++ (prop, given) :: after ∧
      (∀ entry ∈ before, entry.2.obstacle? entry.1 = none) ∧ given.obstacle? prop = some obstacle ∧
      reason = .notComputable prop obstacle := by
  rw [← error?_eq_some_iff, error?_attempt_of_leaf hleaf hknown, Givens.obstacle?, List.findSome?_eq_some_iff]
  simp only [Option.map_eq_some_iff, Option.map_eq_none_iff, Prod.exists]
  constructor
  · rintro ⟨before, prop, given, after, hprops, ⟨obstacle, hobstacle, rfl⟩, hbefore⟩
    exact ⟨before, prop, given, after, obstacle, hprops, hbefore, hobstacle, rfl⟩
  · rintro ⟨before, prop, given, after, obstacle, hprops, hbefore, hobstacle, rfl⟩
    exact ⟨before, prop, given, after, hprops, ⟨obstacle, hobstacle, rfl⟩, hbefore⟩

end Leaf

end Primitive

/-! ## A visit -/

namespace Progress

variable {progress : Progress}

/-- A primitive was rendered at the only attempt. -/
def RenderedAtOnce (progress : Progress) (id : String) : Prop :=
  progress.evaluationsOf id = 1 ∧ (progress.rendered? id).isSome = true

/-- A plain primitive is rendered at once if its children are. -/
theorem Settled.renderedAtOnce (h : progress.Settled p scope) (hplain : p.IsPlain)
    (hchildren : ∀ child ∈ p.children, progress.RenderedAtOnce child) : progress.RenderedAtOnce p.id := by
  have htrial : ∀ reach, ∃ rendered, progress.trial p scope reach = .ok rendered := fun reach =>
    hplain.exists_attempt (fun child hchild => by
      obtain ⟨hone, hrendered⟩ := hchildren child hchild
      rwa [renderedWithin?_of_le (by omega)]) _
  have hevaluated := h.evaluated
  -- there is a second attempt only if the first one was open
  have hone : ¬1 < progress.evaluationsOf p.id := fun hmore => by
    have hopen := h.earlier 1 (Nat.le_refl 1) hmore
    obtain ⟨rendered, hrendered⟩ := htrial 1
    rw [hrendered] at hopen
    cases hopen
  obtain ⟨rendered, hrendered⟩ := htrial (progress.evaluationsOf p.id)
  refine ⟨by omega, ?_⟩
  rw [rendered?, h.attempt, hrendered]
  rfl

/-- In a tree of plain primitives every primitive is rendered at once: by induction from the leaves up. -/
theorem renderedAtOnce_of_grown {above : List Primitive} {tree : Tree} (hgrown : Tree.Grown registry above tree)
    (hplain : ∀ p ∈ registry.primitives, p.IsPlain)
    (hsettled : ∀ p way, (p, way) ∈ tree.places above → progress.Settled p ((p :: way).map Primitive.layer)) :
    ∀ id ∈ tree.ids, progress.RenderedAtOnce id := by
  induction hgrown with
  | @node p above children hlineage hids _ ih =>
    simp only [Tree.places_node, List.mem_append, List.mem_flatMap, List.mem_singleton] at hsettled
    have hbelow : ∀ tree ∈ children, ∀ id ∈ tree.ids, progress.RenderedAtOnce id := fun tree htree =>
      ih tree htree fun q way hq => hsettled q way (Or.inl ⟨tree, htree, hq⟩)
    intro id hid
    rw [Tree.ids_node, List.mem_append, List.mem_flatMap, List.mem_singleton] at hid
    rcases hid with ⟨tree, htree, hid⟩ | rfl
    · exact hbelow tree htree id hid
    · refine (hsettled p above (Or.inr rfl)).renderedAtOnce (hplain p (hlineage.registered p List.mem_cons_self)) ?_
      intro child hchild
      rw [← hids, List.mem_map] at hchild
      obtain ⟨tree, htree, rfl⟩ := hchild
      exact hbelow tree htree _ (Tree.top_mem_ids tree)

end Progress

/-! ## A resolution -/

namespace Registry

/-- A valid registry in which no root stays deferred is resolved under any policy. -/
theorem resolve_of_find?_fails {config : Config} (hvalid : registry.validate = .ok ())
    (hrendered : registry.roots.find? registry.fails = none) :
    registry.resolve config = .ok (registry.addTrees Resolution.empty registry.roots) := by
  cases hpolicy : config.onUnresolvable with
  | deferToServe => exact resolve_deferToServe hvalid hpolicy
  | fail => rw [resolve_fail hvalid hpolicy, hrendered]

section Plain

variable (hforest : registry.IsForest) (hplain : ∀ p ∈ registry.primitives, p.IsPlain)

include hforest hplain

/-- Where all primitives are plain, the visit of a tree renders each of them when it comes to it. -/
theorem IsForest.renderedAtOnce {root : Primitive} (hroot : root ∈ registry.roots) (hid : id ∈ (registry.tree root).ids) :
    (registry.visitTree root).2.RenderedAtOnce id :=
  Progress.renderedAtOnce_of_grown (hforest.grown_tree hroot) hplain (hforest.visited_visitTree hroot).settled id hid

/-- No root fails. -/
theorem IsForest.find?_fails : registry.roots.find? registry.fails = none := by
  refine List.find?_eq_none.2 fun root hroot hfails => ?_
  obtain ⟨-, hrendered⟩ := hforest.renderedAtOnce hplain hroot (id_mem_ids_tree registry root)
  rw [fails, Option.isNone_iff_eq_none] at hfails
  rw [hfails] at hrendered
  cases hrendered

/-- Nothing is deferred, and everything was attempted once. -/
theorem IsForest.isDeferred_addTrees_of_plain (hid : id ∈ registry.ids) :
    (registry.addTrees Resolution.empty registry.roots).isDeferred id = false ∧
      (registry.addTrees Resolution.empty registry.roots).evaluationsOf id = 1 := by
  obtain ⟨root, hroot, hin⟩ := hforest.mem_ids_iff.1 hid
  obtain ⟨hone, hrendered⟩ := hforest.renderedAtOnce hplain hroot hin
  rw [hforest.isDeferred_addTrees hroot hin, hforest.evaluationsOf_addTrees hroot hin]
  exact ⟨by rw [← Option.not_isSome, hrendered]; rfl, hone⟩

/-- No primitive waits for a wider scope. -/
theorem IsForest.isBubbled_addTrees_of_plain (hid : id ∈ registry.ids) :
    (registry.addTrees Resolution.empty registry.roots).isBubbled id = false := by
  rw [Resolution.isBubbled, (hforest.isDeferred_addTrees_of_plain hplain hid).2]
  exact Bool.and_false _

/-- In the end there is markup for all primitives. -/
theorem IsForest.state?_addTrees_of_plain (hid : id ∈ registry.ids) :
    ∃ html, (registry.addTrees Resolution.empty registry.roots).state? id = some (.resolved html) := by
  have htold := NameMap.mem_names_iff.1 (hforest.mem_names_states.2 hid)
  obtain ⟨state, hstate⟩ := Option.isSome_iff_exists.1 htold
  have hstate' : (registry.addTrees Resolution.empty registry.roots).state? id = some state := hstate
  cases state with
  | resolved html => exact ⟨html, hstate'⟩
  | deferred reason =>
    have hdeferred := Resolution.isDeferred_iff.2 ⟨reason, hstate'⟩
    rw [(hforest.isDeferred_addTrees_of_plain hplain hid).1] at hdeferred
    cases hdeferred

/-- Nothing bubbles. -/
theorem IsForest.stats_addTrees_of_plain :
    (registry.addTrees Resolution.empty registry.roots).stats.deferrals = 0 ∧
      (registry.addTrees Resolution.empty registry.roots).stats.bubbled = 0 ∧
      (registry.addTrees Resolution.empty registry.roots).stats.maxBubbleDistance = 0 := by
  have hdeferrals := hforest.count_eq_countP (fun _ _ => rfl) rfl fun root hroot => hforest.deferrals_resolveTree hroot
  have hbubbled := hforest.count_eq_countP (fun _ _ => rfl) rfl fun root hroot => hforest.bubbled_resolveTree hroot
  refine ⟨hdeferrals.trans ?_, hbubbled.trans ?_, ?_⟩
  · refine List.countP_eq_zero.2 fun id hid => ?_
    rw [(hforest.isDeferred_addTrees_of_plain hplain hid).1, hforest.isBubbled_addTrees_of_plain hplain hid]
    exact Bool.false_ne_true
  · refine List.countP_eq_zero.2 fun id hid => ?_
    rw [hforest.isBubbled_addTrees_of_plain hplain hid]
    exact Bool.false_ne_true
  · rw [hforest.maxBubbleDistance_eq]
    refine Nat.le_zero.1 (greatest_le_iff.2 (List.forall_mem_map.2 fun (p, way) hp => ?_))
    obtain ⟨root, hroot, hplace⟩ := List.mem_flatMap.1 hp
    have hid : p.id ∈ registry.ids := hforest.mem_ids_iff.2 ⟨root, hroot, Tree.mem_ids_of_mem_places hplace⟩
    obtain ⟨hresolved, hone⟩ := hforest.isDeferred_addTrees_of_plain hplain hid
    dsimp only
    rw [Resolution.bubbleDistance, hresolved, hone]
    exact Nat.le_refl 0

end Plain

end Registry

/-- A primitive without children whose properties are known is deferred, whatever the scope, exactly if one of them has an
obstacle, and the first such property is the reason. A valid registry in which all properties are known and none has an
obstacle is resolved under any policy; each primitive is rendered at its only attempt, and nothing bubbles. -/
theorem known_props_settle_at_once :
    (∀ (p : Primitive) (children : List (Option Rendered)) (scope : Scope), p.children = [] →
      (∀ entry ∈ p.props, entry.2.isKnown = true) →
      ((∃ reason, p.attempt children scope = .error reason) ↔
        ∃ entry ∈ p.props, (entry.2.obstacle? entry.1).isSome = true) ∧
      ∀ reason, p.attempt children scope = .error reason ↔
        ∃ before prop given after obstacle, p.props = before ++ (prop, given) :: after ∧
          (∀ entry ∈ before, entry.2.obstacle? entry.1 = none) ∧ given.obstacle? prop = some obstacle ∧
          reason = .notComputable prop obstacle) ∧
    ∀ (registry : Registry) (config : Config), registry.validate = .ok () → (∀ p ∈ registry.primitives, p.IsPlain) →
      ∃ resolution, registry.resolve config = .ok resolution ∧
        (∀ id ∈ registry.ids, (∃ html, resolution.state? id = some (.resolved html)) ∧ resolution.evaluationsOf id = 1) ∧
        resolution.stats.deferrals = 0 ∧ resolution.stats.bubbled = 0 ∧ resolution.stats.maxBubbleDistance = 0 := by
  constructor
  · intro p children scope hleaf hknown
    exact ⟨Primitive.exists_attempt_eq_error_iff hleaf hknown, fun _ => Primitive.attempt_eq_error_iff hleaf hknown⟩
  · intro registry config hvalid hplain
    have hforest := (Registry.wellFormed_of_validate hvalid).forest
    exact ⟨_, Registry.resolve_of_find?_fails hvalid (hforest.find?_fails hplain), fun id hid =>
      ⟨hforest.state?_addTrees_of_plain hplain hid, (hforest.isDeferred_addTrees_of_plain hplain hid).2⟩,
      hforest.stats_addTrees_of_plain hplain⟩

/-- A tile with a key that is never written, a title from the server, and two properties that cannot be written. -/
def brokenTile : Primitive :=
  ((((Primitive.new "tile" "div").withProp "key" (.literal (.object []))).withProp "title" (.slot "title")).withProp "style"
    (.literal (.object [("color", .string "red"), ("margin", .array [])]))).withProp "text" (.literal (.object []))

/-- Two tiles in a row and a rule beside the row, with nothing but literals that have markup and slots. -/
def mosaic : Registry where
  route? := some "/mosaic"
  primitives := [
    (Primitive.new "page" "main").withChildren ["row", "rule"],
    ((Primitive.new "red" "div").withParent "row").withProp "style" (.literal (.object [("color", .string "red")])),
    ((Primitive.new "row" "div").withParent "page").withChildren ["red", "blue"],
    ((((Primitive.new "blue" "div").withParent "row").withProp "key" (.literal (.object []))).withProp "label"
      (.literal (.array [.object []]))).withProp "children" (.literal (.array [.array [.string "<b>"], .null])),
    (((Primitive.new "rule" "hr").withParent "page").withProp "title" (.slot "title")).withProp "hidden"
      (.literal (.bool true))]
  nodup := by decide

/-- The broken tile is deferred for its style, and the mosaic is rendered at once. -/
theorem mosaic_settles_at_once :
    brokenTile.attempt [] [brokenTile.layer] = .error (.notComputable "style" (.styleEntry "margin")) ∧
    mosaic.validate = .ok () ∧ ∃ resolution, mosaic.resolve {} = .ok resolution ∧
      (∀ id ∈ mosaic.ids, (∃ html, resolution.state? id = some (.resolved html)) ∧ resolution.evaluationsOf id = 1) ∧
      resolution.stats.deferrals = 0 ∧ resolution.stats.bubbled = 0 ∧ resolution.stats.maxBubbleDistance = 0 := by
  have hvalid : mosaic.validate = .ok () := by rfl
  have hknown : ∀ entry ∈ brokenTile.props, entry.2.isKnown = true := by decide
  have hplain : ∀ p ∈ mosaic.primitives, p.IsPlain := by decide
  obtain ⟨-, hreason⟩ := known_props_settle_at_once.1 brokenTile [] [brokenTile.layer] rfl hknown
  refine ⟨(hreason _).2 ?_, hvalid, known_props_settle_at_once.2 mosaic {} hvalid hplain⟩
  exact ⟨[("key", .literal (.object [])), ("title", .slot "title")], "style", _, _, .styleEntry "margin", rfl, by decide,
    by decide, rfl⟩

end Prebake
