import Prebake.Json.Printer
import Prebake.Resolution

/-!
# The output of a build

For each tree its markup and the manifest of its markers, with what has become of each primitive and the counts over
all of them. The output is written as a JSON object.
-/

namespace Prebake

/-- A tree as it is handed to the server. -/
structure OutputTree where
  root : String
  html? : Option String
  manifest : Manifest

/-- The outcome of a build. -/
structure Output where
  route? : Option String
  trees : List OutputTree
  states : NameMap State
  stats : Stats

namespace OutputTree

/-- A resolved tree with the manifest of its slots. -/
def ofResolved (tree : ResolvedTree) : OutputTree :=
  match tree.rendered? with
  | some rendered => ⟨tree.root, some rendered.html, Manifest.ofSlots rendered.slots.names⟩
  | none => ⟨tree.root, none, Manifest.empty⟩

/-- Checks that the manifest of a tree lists every marker in its markup. -/
def verify (tree : OutputTree) : Except Failure Unit :=
  match tree.html?.bind tree.manifest.firstStray? with
  | some marker => .error (.strayMarker tree.root marker)
  | none => .ok ()

end OutputTree

/-- The output trees of resolved trees, each of them checked if this is asked for. -/
def outputTrees (verify : Bool) : List ResolvedTree → Except Failure (List OutputTree)
  | [] => .ok []
  | resolved :: rest => do
    let tree := OutputTree.ofResolved resolved
    if verify then tree.verify
    return tree :: (← outputTrees verify rest)

/-- Builds the output for a registry. -/
def Registry.prerender (registry : Registry) (config : Config) : Except Failure Output := do
  let resolution ← registry.resolve config
  return {
    route? := registry.route?
    trees := ← outputTrees config.verifyMarkers resolution.trees
    states := resolution.states
    stats := resolution.stats }

namespace Output

/-- The markup of the tree with a root. -/
def html? (output : Output) (root : String) : Option String :=
  (output.trees.find? (·.root == root)).bind (·.html?)

/-- The markup of all trees that have markup, one after the other. -/
def document (output : Output) : String := String.join (output.trees.filterMap (·.html?))

end Output

/-! ### The output as JSON -/

/-- A text, or null for none. -/
def Json.ofText? : Option String → Json
  | some text => .string text
  | none => .null

/-- A natural number. -/
def Json.ofNat (n : Nat) : Json := .whole n

/-- A map as an object. -/
def Json.ofMap {α : Type} (encode : α → Json) (map : NameMap α) : Json :=
  .object (map.mapValues encode).entries

/-- A reason as JSON. -/
def Reason.toJson : Reason → Json
  | missingBinding prop name =>
    .object [("kind", .string "missingBinding"), ("prop", .string prop), ("name", .string name)]
  | runtimeOnly prop name =>
    .object [("kind", .string "runtimeOnly"), ("prop", .string prop), ("name", .string name)]
  | deferredChild child => .object [("kind", .string "deferredChild"), ("childId", .string child)]
  | notComputable prop obstacle =>
    .object [("kind", .string "notComputable"), ("prop", .string prop), ("detail", .string obstacle.message)]

/-- A state as JSON. -/
def State.toJson : State → Json
  | resolved html => .object [("state", .string "resolved"), ("html", .string html)]
  | deferred reason => .object [("state", .string "deferred"), ("reason", reason.toJson)]

/-- Counts as JSON. -/
def Stats.toJson (stats : Stats) : Json :=
  .object [
    ("trees", .ofNat stats.trees),
    ("nodes", .ofNat stats.nodes),
    ("evaluations", .ofNat stats.evaluations),
    ("deferrals", .ofNat stats.deferrals),
    ("bubbled", .ofNat stats.bubbled),
    ("maxBubbleDistance", .ofNat stats.maxBubbleDistance),
    ("unresolved", .ofNat stats.unresolved)]

/-- A tree as JSON. -/
def OutputTree.toJson (tree : OutputTree) : Json :=
  .object [
    ("rootId", .string tree.root),
    ("html", .ofText? tree.html?),
    ("placeholders", .ofMap .string tree.manifest)]

namespace Output

/-- The output as JSON; a route that is not known is left out. -/
def toJson (output : Output) : Json :=
  .object ((output.route?.map fun route => ("route", Json.string route)).toList ++ [
    ("trees", .array (output.trees.map OutputTree.toJson)),
    ("states", .ofMap State.toJson output.states),
    ("stats", output.stats.toJson)])

/-- The text of the output, on several lines if this is asked for. -/
def text (output : Output) (pretty : Bool) : String :=
  if pretty then output.toJson.pretty else output.toJson.compact

end Output

namespace Failure

/-- A report of a failure as JSON, for a registry with a route. -/
def toJson (failure : Failure) (route? : Option String) : Json :=
  .object [
    ("code", .string failure.code),
    ("message", .string failure.message),
    ("guarantee", .string failure.guarantee),
    ("nodeId", .ofText? failure.id?),
    ("route", .ofText? route?),
    ("hints", .array (failure.hints.map .string))]

end Failure

end Prebake
