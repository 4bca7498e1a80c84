import Prebake.Registry.Cycles

/-!
# Valid registries

A registry is valid if its primitives form trees, if tags and names of properties can be written into markup, and if
no primitive off the primary branch is given an unclassified expression. `Registry.failures` lists everything that is
wrong, first what is wrong with the trees; where an id is unknown nothing else is looked at.
-/

namespace Prebake

/-- Whether a text can be the tag of an element: an ASCII letter, and then ASCII letters, digits and hyphens. -/
def isTag (tag : String) : Bool :=
  match tag.toList with
  | [] => false
  | c :: rest => c.isAlpha && rest.all fun d => d.isAlphanum || d == '-'

/-- The characters that the name of an attribute may hold. -/
def isNameChar (c : Char) : Bool :=
  !(isBlank c || c == '"' || c == '\'' || c == '<' || c == '>' || c == '/' || c == '=' || c.toNat < 0x20)

/-- Whether a text can be the name of an attribute. -/
def isAttributeName (name : String) : Bool := !name.isEmpty && name.toList.all isNameChar

/-- Whether a value is given by an unclassified expression. -/
def Given.isUnclassified : Given → Bool
  | .unclassified _ => true
  | _ => false

namespace Primitive

/-- The ids that a primitive refers to: its children and then its parent. -/
def references (p : Primitive) : List String := p.children ++ p.parent?.toList

/-- What is wrong with a property of a primitive. -/
def propFailures (p : Primitive) (name : String) (given : Given) : List Failure :=
  (if isAttributeName name then [] else [.invalidAttributeName p.id name])
    ++ if !p.onPrimaryBranch && given.isUnclassified then [.invalidProvenance p.id name] else []

/-- What is wrong with a binding of a primitive. -/
def bindingFailures (p : Primitive) (name : String) (given : Given) : List Failure :=
  if !p.onPrimaryBranch && given.isUnclassified then [.invalidBindingProvenance p.id name] else []

/-- What is wrong with a primitive by itself. -/
def failures (p : Primitive) : List Failure :=
  (if isTag p.tag then [] else [.invalidTag p.id p.tag])
    ++ (p.props.flatMap fun (name, given) => p.propFailures name given)
    ++ p.bindings.flatMap fun (name, given) => p.bindingFailures name given

end Primitive

namespace Registry

/-- A failure for each reference to an id that is not registered. -/
def referenceFailures (registry : Registry) : List Failure :=
  registry.primitives.flatMap fun p =>
    (p.references.filter fun id => !registry.contains id).map (.danglingReference p.id)

/-- Each listed child with the primitive that lists it, in order. -/
def links (registry : Registry) : List (String × String) :=
  registry.primitives.flatMap fun p => p.children.map fun child => (child, p.id)

/-- What is wrong with a child that a primitive lists, where `earlier` are the links before, the latest first. -/
def linkFailure? (registry : Registry) (earlier : List (String × String)) (child listedBy : String) :
    Option Failure :=
  match earlier.lookup child with
  | some first => some (.multipleParents child first listedBy)
  | none =>
    let declared? := (registry.find? child).bind (·.parent?)
    if declared? = some listedBy then none else some (.parentMismatch child listedBy declared?)

/-- What is wrong with links, one after the other. -/
def linkFailures (registry : Registry) (earlier : List (String × String)) : List (String × String) → List Failure
  | [] => []
  | (child, listedBy) :: rest =>
    (registry.linkFailure? earlier child listedBy).toList
      ++ linkFailures registry ((child, listedBy) :: earlier) rest

/-- A failure for each primitive that declares a parent and is listed by none. -/
def unlistedFailures (registry : Registry) : List Failure :=
  registry.primitives.filterMap fun p =>
    match p.parent? with
    | some parent =>
      if registry.links.any (·.1 == p.id) then none else some (.parentMismatch p.id parent (some parent))
    | none => none

/-- What is wrong with the children and parents of the primitives. -/
def parentFailures (registry : Registry) : List Failure :=
  registry.linkFailures [] registry.links ++ registry.unlistedFailures

/-- Everything that is wrong with a registry. -/
def failures (registry : Registry) : List Failure :=
  let dangling := registry.referenceFailures
  if dangling.isEmpty then
    registry.parentFailures ++ registry.cycles.map .cycle ++ registry.primitives.flatMap Primitive.failures
  else dangling

/-- The first thing that is wrong with a registry. -/
def validate (registry : Registry) : Except Failure Unit :=
  match registry.failures with
  | [] => .ok ()
  | failure :: _ => .error failure

end Registry

end Prebake
