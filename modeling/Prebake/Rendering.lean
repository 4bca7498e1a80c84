import Prebake.Evaluation
import Prebake.Markup.Writer
import Prebake.Primitive

/-!
# Rendering one primitive

An attempt renders a primitive from its properties, the markup of its children and a scope. Where something is missing
the primitive is deferred, and the attempt tells the reason; a primitive with a deferred child is itself deferred.
-/

namespace Prebake

/-- The markup of a primitive with all that is in it, and the slots it holds. -/
structure Rendered where
  html : String
  slots : NameSet

instance : Inhabited Rendered := ⟨"", NameMap.empty⟩

/-- Why a primitive could not be rendered. -/
inductive Reason where
  | missingBinding (prop name : String)
  | runtimeOnly (prop name : String)
  | deferredChild (child : String)
  | notComputable (prop : String) (obstacle : Obstacle)
deriving DecidableEq, Repr

namespace Reason

/-- The wording of a reason. -/
def message : Reason → String
  | missingBinding prop name => "prop `" ++ prop ++ "` needs binding `" ++ name ++ "`"
  | runtimeOnly prop name => "prop `" ++ prop ++ "` reads `" ++ name ++ "`, which only exists at runtime"
  | deferredChild child => "child `" ++ child ++ "` is deferred"
  | notComputable prop obstacle => "prop `" ++ prop ++ "` is not computable at build time: " ++ obstacle.message

/-- Whether another attempt with a wider scope could turn out differently. -/
def isRetryable : Reason → Bool
  | notComputable _ _ => false
  | _ => true

/-- The reason that the evaluation of a property failed. -/
def ofEvaluation (prop : String) : EvalError → Reason
  | .missingBinding name => missingBinding prop name
  | .runtimeOnly name => runtimeOnly prop name
  | .notComputable obstacle => notComputable prop obstacle

end Reason

/-- The outcome of an attempt: the markup, or the reason for which the primitive is deferred. -/
abbrev Attempt : Type := Except Reason Rendered

/-- Whether an attempt gave markup. -/
def Attempt.isResolved : Attempt → Bool
  | .ok _ => true
  | .error _ => false

/-- An element in the making: its start tag and its content. -/
structure Draft where
  start : Writer
  body : Writer

namespace Draft

/-- An element without attributes and content. -/
def begin (tag : String) : Draft := ⟨Writer.empty.openTag tag, Writer.empty⟩

/-- The element with one more property written, be it as an attribute or as content. -/
def addValue (draft : Draft) (prop : String) (value : Value) : Except Reason Draft :=
  if Markup.isContent prop then
    match draft.body.text value with
    | (body, none) => .ok { draft with body := body }
    | (_, some obstacle) => .error (.notComputable prop obstacle)
  else
    match draft.start.property prop value with
    | .ok start => .ok { draft with start := start }
    | .error obstacle => .error (.notComputable prop obstacle)

/-- The element with one more property evaluated and written, unless the property is skipped. -/
def addProp (scope : Scope) (draft : Draft) (prop : String) (given : Given) : Except Reason Draft := do
  if Markup.isSkipped prop then return draft
  let value ← (given.eval scope).mapError (Reason.ofEvaluation prop)
  draft.addValue prop value

/-- The element with all properties of a primitive, in their order. -/
def addProps (scope : Scope) : Draft → Givens → Except Reason Draft
  | draft, [] => .ok draft
  | draft, (prop, given) :: rest => do addProps scope (← draft.addProp scope prop given) rest

/-- The element with the markup of a child added to its content. -/
def addChild (draft : Draft) (child : Rendered) : Draft :=
  { draft with body := (draft.body.raw child.html).adopt child.slots }

/-- The markup of the element. One without an end tag may still have content, and then it gets an end tag. -/
def rendered (draft : Draft) (tag : String) : Rendered :=
  let whole :=
    if Markup.isVoidElement tag && draft.body.isEmpty then draft.start.closeVoidTag
    else ((draft.start.closeTag.raw draft.body.html).adopt draft.body.slots).endTag tag
  ⟨whole.html, whole.slots⟩

end Draft

namespace Primitive

/-- The primitive with the markup of its children, in a scope. -/
def render (p : Primitive) (children : List Rendered) (scope : Scope) : Attempt := do
  let draft ← (Draft.begin p.tag).addProps scope p.props
  return (children.foldl Draft.addChild draft).rendered p.tag

/-- The markup of the children, unless one of them is deferred; the first such child is the reason. -/
def childMarkup : List (String × Option Rendered) → Except Reason (List Rendered)
  | [] => .ok []
  | (_, some rendered) :: rest => do return rendered :: (← childMarkup rest)
  | (child, none) :: _ => .error (.deferredChild child)

/-- One attempt to render the primitive. For each child its markup is given, or nothing if it is deferred. -/
def attempt (p : Primitive) (children : List (Option Rendered)) (scope : Scope) : Attempt := do
  p.render (← childMarkup (p.children.zip children)) scope

end Primitive

end Prebake
