import Prebake.FileTree.System

/-!
# Finding registries

Every file below a directory whose path ends in the suffix of registries holds a registry. What stands before the
suffix in the path from the directory is its route. The files are those of a file system whose names are text
(`Prebake.FileTree.Basic` says what else of a disk is left out), so that a route is made of the names as they are, with nothing
substituted for bytes that are no text.
-/

namespace Prebake

/-- A registry that was found. -/
structure Discovered where
  path : String
  route : String
deriving DecidableEq, Repr

namespace Discovered

/-- How the paths of registries end. -/
def suffix : List Char := ".registry.json".toList

/-- How the paths of outputs end. -/
def outputSuffix : String := ".prerender.json"

/-- The path of the output for a registry that was found. -/
def outputPath (found : Discovered) (directory : String) : String :=
  Path.join directory (found.route ++ outputSuffix)

/-- The route of a file below a directory, if it holds a registry. A route is not empty. -/
def route? (names : Place) : Option String :=
  let chars := (Path.ofNames false names).toList
  let route := chars.take (chars.length - suffix.length)
  if suffix.isSuffixOf chars && !route.isEmpty then some (String.ofList route) else none

/-- A file below a directory as a registry. -/
def ofPlace? (directory : String) (names : Place) : Option Discovered :=
  (route? names).map fun route => ⟨Path.join directory (Path.ofNames false names), route⟩

/-- Files below a directory that hold registries, in the order of their routes. -/
def ofPlaces (directory : String) (places : List Place) : List Discovered :=
  (places.filterMap (ofPlace? directory)).mergeSort fun a b => decide (a.route ≤ b.route)

end Discovered

/-- The registries below a directory, in the order of their routes. -/
def FileSystem.discover {m : Type → Type} [Monad m] (files : FileSystem m) (directory : String) :
    m (List Discovered) := do
  return Discovered.ofPlaces directory (← files.filesBelow directory)

end Prebake
