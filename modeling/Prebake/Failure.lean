import Prebake.Json.Fault
import Prebake.Rendering

/-!
# Failures

A failure ends a build. Each one has a code, tells which guarantee is at stake, names the primitive it is about if
there is one, and may come with hints.
-/

namespace Prebake

/-- Why a file could not be read or written. -/
inductive FileFault where
  | missing
  | isDirectory
  | notDirectory
  | alreadyExists
  /-- Some other fault, with its wording. -/
  | other (text : String)
deriving DecidableEq, Repr

/-- The wording of a fault. -/
def FileFault.message : FileFault → String
  | missing => "No such file or directory (os error 2)"
  | isDirectory => "Is a directory (os error 21)"
  | notDirectory => "Not a directory (os error 20)"
  | alreadyExists => "File exists (os error 17)"
  | other text => text

/-- Why a build fails, or what else is wrong with a registry or with a file. -/
inductive Failure where
  | invalidProvenance (id prop : String)
  | invalidBindingProvenance (id binding : String)
  | unresolvable (id : String) (chain : List String) (reason : Reason)
  | danglingReference (source target : String)
  | cycle (ids : List String)
  | duplicateId (id : String)
  | multipleParents (child first second : String)
  | parentMismatch (child listedBy : String) (declared? : Option String)
  | invalidTag (id tag : String)
  | invalidAttributeName (id name : String)
  | strayMarker (root marker : String)
  | invalidRegistry (fault : Json.Fault)
  | invalidConfig (fault : Json.Fault)
  | file (path : String) (fault : FileFault)
deriving DecidableEq, Repr

namespace Failure

/-- The ids of a way through the primitives. -/
def wayText (ids : List String) : String := String.intercalate " -> " ids

/-- The wording of a failure. -/
def message : Failure → String
  | invalidProvenance id prop =>
    "primitive `" ++ id ++ "` is outside the primary branch but prop `" ++ prop ++ "` has unknown provenance"
  | invalidBindingProvenance id binding =>
    "primitive `" ++ id ++ "` is outside the primary branch but binding `" ++ binding ++ "` has unknown provenance"
  | unresolvable id chain reason =>
    "primitive `" ++ id ++ "` is still deferred at the root (bubbled through " ++ wayText chain ++ "): "
      ++ reason.message
  | danglingReference source target =>
    "primitive `" ++ source ++ "` references `" ++ target ++ "`, which is not in the registry"
  | cycle ids => "primitives form a cycle: " ++ wayText ids
  | duplicateId id => "primitive id `" ++ id ++ "` is registered twice"
  | multipleParents child first second =>
    "primitive `" ++ child ++ "` is listed as a child of both `" ++ first ++ "` and `" ++ second ++ "`"
  | parentMismatch child listedBy declared? =>
    "primitive `" ++ child ++ "` is listed by `" ++ listedBy ++ "` but declares parent "
      ++ (match declared? with
        | some declared => "`" ++ declared ++ "`"
        | none => "none")
  | invalidTag id tag => "primitive `" ++ id ++ "` has invalid tag name `" ++ tag ++ "`"
  | invalidAttributeName id name => "primitive `" ++ id ++ "` has invalid attribute name `" ++ name ++ "`"
  | strayMarker root marker =>
    "tree `" ++ root ++ "` contains placeholder `" ++ marker ++ "` missing from its manifest"
  | invalidRegistry fault => "invalid registry: " ++ fault.message
  | invalidConfig fault => "invalid config: " ++ fault.message
  | file path fault => "cannot read `" ++ path ++ "`: " ++ fault.message

/-- The code of a failure. -/
def code : Failure → String
  | invalidProvenance .. | invalidBindingProvenance .. => "RX-ERR-PROVENANCE-001"
  | unresolvable .. => "RX-ERR-RESOLVE-001"
  | danglingReference .. => "RX-ERR-REGISTRY-001"
  | cycle .. => "RX-ERR-REGISTRY-002"
  | duplicateId .. => "RX-ERR-REGISTRY-003"
  | multipleParents .. => "RX-ERR-REGISTRY-004"
  | parentMismatch .. => "RX-ERR-REGISTRY-005"
  | invalidTag .. => "RX-ERR-MARKUP-001"
  | invalidAttributeName .. => "RX-ERR-MARKUP-002"
  | strayMarker .. => "RX-ERR-PLACEHOLDER-001"
  | invalidRegistry .. => "RX-ERR-INPUT-001"
  | invalidConfig .. => "RX-ERR-INPUT-002"
  | file .. => "RX-ERR-IO-001"

/-- The guarantee that a build could not give. -/
def guarantee : Failure → String
  | invalidProvenance .. | invalidBindingProvenance .. =>
    "Primitives outside the primary branch only receive literal, component-local or server values."
  | unresolvable .. => "Every primitive on the primary branch is pre-rendered at build time."
  | danglingReference .. => "Every referenced primitive id exists in the registry."
  | cycle .. => "Primitives form a document tree."
  | duplicateId .. => "Primitive ids are unique within a build."
  | multipleParents .. => "Every primitive has at most one parent."
  | parentMismatch .. => "parentId and childrenIds describe the same tree."
  | invalidTag .. | invalidAttributeName .. => "Emitted markup is well-formed HTML."
  | strayMarker .. => "Every server-value token in the output is listed in the placeholder manifest."
  | invalidRegistry .. | invalidConfig .. => "Build inputs are well-formed JSON."
  | file .. => "Build inputs are readable."

/-- The primitive that a failure is about. -/
def id? : Failure → Option String
  | invalidProvenance id _ | invalidBindingProvenance id _ | unresolvable id _ _ | invalidTag id _
  | invalidAttributeName id _ | duplicateId id => some id
  | danglingReference source _ => some source
  | multipleParents child _ _ | parentMismatch child _ _ => some child
  | cycle ids => ids.head?
  | strayMarker root _ => some root
  | invalidRegistry _ | invalidConfig _ | file _ _ => none

/-- What can be done about a primitive that stays deferred for a reason. -/
def reasonHints : Reason → List String
  | .missingBinding _ name =>
    ["No enclosing scope declares `" ++ name
      ++ "`. Declare it in the rendering component or read it with useServerValues()."]
  | .runtimeOnly .. | .notComputable .. =>
    ["Move runtime-only computation into a client effect, or pass the value as a server value."]
  | .deferredChild _ => []

/-- What can be done about a failure. -/
def hints : Failure → List String
  | invalidProvenance _ prop =>
    ["Pass `" ++ prop ++ "` a server value or a value declared in the same component.",
      "Conditionally rendered primitives cannot be re-evaluated with arbitrary values."]
  | invalidBindingProvenance _ binding =>
    ["Declare `" ++ binding ++ "` from a literal, a server value or another component-local value."]
  | unresolvable _ _ reason => reasonHints reason
  | danglingReference .. | cycle .. | multipleParents .. | parentMismatch .. | duplicateId .. =>
    ["This is a bug in the JSX instrumentation step; please report it."]
  | invalidTag .. | invalidAttributeName .. | strayMarker .. | invalidRegistry .. | invalidConfig .. | file .. => []

end Failure

end Prebake
