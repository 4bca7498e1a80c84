/-!
# Paths

A path is a text of names with slashes between them. Empty names count for nothing, and so does the name `.`, except
at the beginning of a path.
-/

namespace Prebake.Path

/-- The pieces of a text between slashes. -/
def pieces : List Char → List (List Char)
  | [] => [[]]
  | c :: rest =>
    if c = '/' then [] :: pieces rest
    else match pieces rest with
      | piece :: more => (c :: piece) :: more
      | [] => [[c]]

/-- The names in a path. -/
def names (path : String) : List String :=
  ((pieces path.toList).filter (!·.isEmpty)).map String.ofList

/-- Whether a path ends with a slash, so that it can only name a directory. -/
def endsWithSlash (path : String) : Bool := path.toList.getLast? == some '/'

/-- Whether a path starts at the root of all files. -/
def isAbsolute (path : String) : Bool := path.toList.head? == some '/'

/-- The names in a path, without those that count for nothing. -/
def components (path : String) : List String :=
  match names path with
  | [] => []
  | first :: rest => (if first = "." && isAbsolute path then [] else [first]) ++ rest.filter (· != ".")

/-- The path of some names. -/
def ofNames (absolute : Bool) (names : List String) : String :=
  (if absolute then "/" else "") ++ String.intercalate "/" names

/-- The path without its last component. -/
def parent? (path : String) : Option String :=
  let components := components path
  if components.isEmpty then none else some (ofNames (isAbsolute path) components.dropLast)

/-- The path of something below a directory. -/
def join (directory below : String) : String :=
  if directory = "" || endsWithSlash directory then directory ++ below else directory ++ "/" ++ below

end Prebake.Path
