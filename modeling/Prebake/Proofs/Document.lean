import Prebake.Proofs.Outcome

/-!
# Elements in document order

The markup of a primitive is its start tag, its own content, the final markup of its children in the order in which they are
listed, and its end tag (`resolve_document_order`). So no markup has a hole, whatever the order in which the primitives were
rendered and however far up they had to wait.
-/

namespace Prebake

open Markup Relation

namespace Primitive

/-- The start tag of a primitive in a scope, up to where it is ended. -/
def startTag (p : Primitive) (scope : Scope) : List Char := '<' :: p.tag.toList ++ writtenAttributes (p.props.attributes scope)

/-- The content of a primitive in a scope that is not markup of its children. -/
def ownContent (p : Primitive) (scope : Scope) : List Char := writtenSegments (p.props.content scope)

/-- The end tag of a primitive. -/
def endTag (p : Primitive) : List Char := "</".toList ++ p.tag.toList ++ ">".toList

variable {p : Primitive} {children : List Rendered} {scope : Scope}

/-- Nothing stands inside an element exactly if it has neither content of its own nor children. -/
theorem inner_eq_nil_iff (hchildren : ∀ child ∈ children, child.StartsWithTag) :
    p.inner children scope = [] ↔ p.ownContent scope = [] ∧ children = [] := by
  rw [inner, List.append_eq_nil_iff]
  refine and_congr_right fun _ => ⟨fun hmarkup => ?_, fun hnone => by rw [hnone]; rfl⟩
  cases children with
  | nil => rfl
  | cons child children =>
    obtain ⟨rest, hhtml⟩ := hchildren child List.mem_cons_self
    rw [List.flatMap_cons, hhtml] at hmarkup
    cases hmarkup

/-- What follows the attributes of a primitive, told by its content and its children. -/
theorem ending_inner (hchildren : ∀ child ∈ children, child.StartsWithTag) :
    ending p.tag (p.inner children scope) =
      if isVoidElement p.tag = true ∧ p.ownContent scope = [] ∧ children = [] then " />".toList
      else '>' :: (p.ownContent scope ++ children.flatMap (·.html.toList)) ++ p.endTag := by
  unfold ending
  simp only [Bool.and_eq_true, List.isEmpty_iff, inner_eq_nil_iff hchildren]
  split
  · rfl
  · simp [inner, ownContent, endTag]

end Primitive

namespace Registry

variable {registry : Registry} {config : Config} {resolution : Resolution} {id html : String}

/-- Whatever is below a primitive with markup has markup, and the markup of the primitive is its start tag, its own content,
what has become of each of its children in the order in which they are listed, and its end tag. An element without an end tag
in which nothing stands is ended in its start tag. -/
theorem resolve_document_order (hresolve : registry.resolve config = .ok resolution)
    (hstate : resolution.state? id = some (.resolved html)) :
    (∀ below, ReflTransGen registry.Lists id below → ∃ markup, resolution.state? below = some (.resolved markup)) ∧
    ∃ p way children rendered, p.id = id ∧ rendered.html = html ∧
      registry.RenderedAs resolution p way children rendered ∧
      html.toList = p.startTag (resolution.lastScope p way) ++
        if isVoidElement p.tag = true ∧ p.ownContent (resolution.lastScope p way) = [] ∧ p.children = [] then " />".toList
        else '>' :: (p.ownContent (resolution.lastScope p way) ++ children.flatMap (·.html.toList)) ++ p.endTag := by
  refine ⟨fun below hdown => exists_state?_of_reflTransGen hresolve hstate hdown, ?_⟩
  obtain ⟨p, way, children, rendered, -, hid, rfl, hrenderedAs, htags⟩ := exists_renderedAs_of_state? hresolve hstate
  have hchildren : p.children = [] ↔ children = [] := by
    have hlengths := congrArg List.length hrenderedAs.children
    rw [List.length_map, List.length_map] at hlengths
    rw [← List.length_eq_zero_iff, hlengths, List.length_eq_zero_iff]
  refine ⟨p, way, children, rendered, hid, rfl, hrenderedAs, ?_⟩
  rw [Primitive.toList_html_render hrenderedAs.render, Primitive.ending_inner htags]
  simp only [hchildren]
  rfl

/-- The page has its title below the rule, although the title was rendered later. -/
theorem gallery_page_in_order :
    ∃ resolution, gallery.resolve (Config.withPolicy {} .deferToServe) = .ok resolution ∧
      resolution.state? "page" = some (.resolved
        "<main label=\"&lt;&quot;a&quot;&gt;\"><hr hidden /><h1>__RUXY_SV_siteName__</h1></main>") ∧
      (∃ markup, resolution.state? "title" = some (.resolved markup)) ∧
      ∃ p way children rendered, p.id = "page" ∧ gallery.RenderedAs resolution p way children rendered ∧
        rendered.html.toList = p.startTag (resolution.lastScope p way) ++
          if isVoidElement p.tag = true ∧ p.ownContent (resolution.lastScope p way) = [] ∧ p.children = [] then " />".toList
          else '>' :: (p.ownContent (resolution.lastScope p way) ++ children.flatMap (·.html.toList)) ++ p.endTag := by
  have hlists : gallery.Lists "page" "title" := mem_childIds.1 (by decide)
  obtain ⟨hbelow, p, way, children, rendered, hid, hhtml, hrenderedAs, horder⟩ := resolve_document_order resolve_gallery
    state?_gallery_page
  rw [← hhtml] at horder
  exact ⟨_, resolve_gallery, state?_gallery_page, hbelow "title" (ReflTransGen.single hlists), p, way, children, rendered, hid, hrenderedAs,
    horder⟩

end Registry

end Prebake
