import Prebake.Failure
import Prebake.FileTree.Path

/-!
# File trees

A file tree holds files and directories by the names that lead to them from its root. Whatever it holds lies in a
directory that it holds too, so that nothing lies below a file.

There is less in a file tree than there can be on a disk. All names and all contents are Unicode text: a name made of other
bytes, of which a route shows a substitute, does not occur. There are no links, so every place is reached in one way only
(apart from `.` and `..`). And every file can be read and every directory listed, so that nothing is passed over because of
missing permissions.
-/

namespace Prebake

/-- What stands at a place in a file tree. -/
inductive FileEntry where
  | directory
  | file (text : String)
deriving DecidableEq, Repr

/-- The names that lead to a place in a file tree. -/
abbrev Place : Type := List String

/-- Whether entries hold the directory in which a place lies. -/
def HoldsParent (entries : List (Place × FileEntry)) (place : Place) : Prop :=
  place.dropLast = [] ∨ (place.dropLast, FileEntry.directory) ∈ entries

instance (entries : List (Place × FileEntry)) (place : Place) : Decidable (HoldsParent entries place) :=
  inferInstanceAs (Decidable (_ ∨ _))

/-- Files and directories, each in a directory that is there too. -/
structure FileTree where
  entries : List (Place × FileEntry)
  nodup : (entries.map (·.1)).Nodup
  rooted : ∀ entry ∈ entries, entry.1 ≠ [] ∧ HoldsParent entries entry.1

namespace FileTree

/-- The tree that holds nothing. -/
def empty : FileTree := ⟨[], List.nodup_nil, by simp⟩

instance : Inhabited FileTree := ⟨empty⟩

/-- What stands at a place; the root is a directory. -/
def find? (tree : FileTree) (place : Place) : Option FileEntry :=
  if place = [] then some .directory else tree.entries.lookup place

/-- Whether a directory stands at a place. -/
def isDirectory (tree : FileTree) (place : Place) : Bool := tree.find? place == some .directory

theorem holdsParent_cons {entries : List (Place × FileEntry)} {place : Place} (entry : Place × FileEntry)
    (h : HoldsParent entries place) : HoldsParent (entry :: entries) place :=
  h.imp_right (List.mem_cons_of_mem _)

/-- The tree with one more entry in a directory that it holds. -/
def add (tree : FileTree) (place : Place) (entry : FileEntry) (new : place ∉ tree.entries.map (·.1))
    (below : place ≠ [] ∧ HoldsParent tree.entries place) : FileTree where
  entries := (place, entry) :: tree.entries
  nodup := List.nodup_cons.2 ⟨new, tree.nodup⟩
  rooted := fun other mem => by
    rcases List.mem_cons.1 mem with rfl | mem
    · exact ⟨below.1, holdsParent_cons _ below.2⟩
    · exact ⟨(tree.rooted other mem).1, holdsParent_cons _ (tree.rooted other mem).2⟩

/-- The tree with a new entry. -/
def create (tree : FileTree) (place : Place) (entry : FileEntry) : Except FileFault FileTree :=
  match tree.find? place.dropLast with
  | none => .error .missing
  | some (.file _) => .error .notDirectory
  | some .directory =>
    if new : place ∉ tree.entries.map (·.1) then
      if below : place ≠ [] ∧ HoldsParent tree.entries place then .ok (tree.add place entry new below)
      else .error .alreadyExists
    else .error .alreadyExists

/-- An entry after the file at a place has been given another text. -/
def overwrite (place : Place) (text : String) (entry : Place × FileEntry) : Place × FileEntry :=
  match entry with
  | (p, .file old) => (p, .file (if p = place then text else old))
  | (p, .directory) => (p, .directory)

theorem overwrite_fst (place : Place) (text : String) (entry : Place × FileEntry) :
    (overwrite place text entry).1 = entry.1 := by
  obtain ⟨p, entry⟩ := entry
  cases entry <;> rfl

/-- The tree with another text for the file at a place. -/
def replace (tree : FileTree) (place : Place) (text : String) : FileTree where
  entries := tree.entries.map (overwrite place text)
  nodup := by
    rw [List.map_map]
    exact (List.map_congr_left fun entry _ => overwrite_fst place text entry) ▸ tree.nodup
  rooted := fun other mem => by
    obtain ⟨entry, held, rfl⟩ := List.mem_map.1 mem
    rw [overwrite_fst]
    obtain ⟨nonempty, parent⟩ := tree.rooted entry held
    exact ⟨nonempty, parent.imp_right fun held => List.mem_map.2 ⟨_, held, rfl⟩⟩

/-- The tree with a text in the file at a place, which is created if nothing stands there. -/
def put (tree : FileTree) (place : Place) (text : String) : Except FileFault FileTree :=
  match tree.find? place with
  | some .directory => .error .isDirectory
  | some (.file _) => .ok (tree.replace place text)
  | none => tree.create place (.file text)

/-- Follows names from a place. Where a name follows, a directory must stand. -/
def walk (tree : FileTree) (place : Place) : List String → Except FileFault Place
  | [] => .ok place
  | name :: rest =>
    match tree.find? place with
    | none => .error .missing
    | some (.file _) => .error .notDirectory
    | some .directory =>
      if name = "." then walk tree place rest
      else if name = ".." then walk tree place.dropLast rest
      else walk tree (place ++ [name]) rest

/-- The place that a path names. -/
def locate (tree : FileTree) (path : String) : Except FileFault Place :=
  if path = "" then .error .missing
  else tree.walk [] (Path.names path ++ if Path.endsWithSlash path then ["."] else [])

/-- The text of the file that a path names. -/
def read (tree : FileTree) (path : String) : Except FileFault String := do
  match tree.find? (← tree.locate path) with
  | some (.file text) => return text
  | some .directory => .error .isDirectory
  | none => .error .missing

/-- Whether a path names a file. -/
def isFile (tree : FileTree) (path : String) : Bool := (tree.read path).toOption.isSome

/-- The tree with one more directory. -/
def makeDirectory (tree : FileTree) (names : List String) : Except FileFault FileTree := do
  let above ← tree.walk [] (names.dropLast ++ ["."])
  match names.getLast? with
  | none | some "." | some ".." => .error .alreadyExists
  | some name => tree.create (above ++ [name]) .directory

/-- Whether names lead to a directory. -/
def leadsToDirectory (tree : FileTree) (names : List String) : Bool :=
  match tree.walk [] names with
  | .ok place => tree.isDirectory place
  | .error _ => false

/-- The tree with a directory and, as far as they are missing, those above it. -/
def makeDirectories (tree : FileTree) (names : List String) : Except FileFault FileTree :=
  if names = [] then .ok tree
  else match tree.makeDirectory names with
    | .ok made => .ok made
    | .error .missing => do
      let above ← makeDirectories tree names.dropLast
      match above.makeDirectory names with
      | .ok made => return made
      | .error fault => if above.leadsToDirectory names then return above else .error fault
    | .error fault => if tree.leadsToDirectory names then .ok tree else .error fault
termination_by names.length
decreasing_by
  have := List.length_pos_iff.2 ‹names ≠ []›
  rw [List.length_dropLast]
  omega

/-- The tree with a text in the file that a path names; missing directories are made. If the writing fails there is no new
tree: directories that have been made by then, which a disk would keep, are dropped with it. -/
def write (tree : FileTree) (path text : String) : Except FileFault FileTree := do
  let tree ← tree.makeDirectories (Path.components path).dropLast
  let names := Path.names path
  match names.getLast? with
  | none => .error (if path = "" then .missing else .isDirectory)
  | some name =>
    let above ← tree.walk [] (names.dropLast ++ ["."])
    if Path.endsWithSlash path || name = "." || name = ".." then .error .isDirectory
    tree.put (above ++ [name]) text

/-- The files below the directory that a path names, by the names that lead to them from there. -/
def filesBelow (tree : FileTree) (path : String) : List Place :=
  match tree.locate path with
  | .error _ => []
  | .ok place =>
    tree.entries.filterMap fun (other, entry) =>
      match entry with
      | .file _ => if place.isPrefixOf other && place != other then some (other.drop place.length) else none
      | .directory => none

/-- The files of a tree that are new or changed since an earlier tree. -/
def changedSince (tree earlier : FileTree) : List (Place × String) :=
  tree.entries.filterMap fun (place, entry) =>
    match entry with
    | .file text => if earlier.find? place = some (.file text) then none else some (place, text)
    | .directory => none

end FileTree

end Prebake
