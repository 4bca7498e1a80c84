import Prebake.FileTree.Basic

/-!
# File systems

What a command needs of the files around it. A file tree that changes as it goes is one file system.
-/

namespace Prebake

/-- Access to files by their paths. -/
structure FileSystem (m : Type → Type) where
  read : String → m (Except FileFault String)
  isFile : String → m Bool
  /-- The files below a directory, by the names that lead to them from there. -/
  filesBelow : String → m (List Place)
  /-- Puts a text into a file; missing directories are made. -/
  write : String → String → m (Except FileFault Unit)

/-- A file tree as a file system. A write that fails leaves the tree as it was, without the directories that have been made
for it. -/
def FileTree.system : FileSystem (StateM FileTree) where
  read path := do return (← get).read path
  isFile path := do return (← get).isFile path
  filesBelow path := do return (← get).filesBelow path
  write path text := do
    match (← get).write path text with
    | .ok tree =>
      set tree
      return .ok ()
    | .error fault => return .error fault

end Prebake
