import Prebake.Command

/-!
# The program

Runs the command that the arguments stand for on the files of the system.
-/

namespace Prebake

/-- What an error of the system says about a file. -/
def FileFault.ofError : IO.Error → FileFault
  | .noFileOrDirectory .. => .missing
  | .alreadyExists .. => .alreadyExists
  | .inappropriateType _ code _ => if code = 21 then .isDirectory else .notDirectory
  | error => .other (toString error)

/-- The outcome of an action on a file. -/
def onFile {α : Type} (action : IO α) : IO (Except FileFault α) := do
  match ← action.toBaseIO with
  | .ok result => return .ok result
  | .error error => return .error (.ofError error)

/-- The files below a directory, where the names of those in its subdirectories are put after `names`. -/
partial def filesIn (directory : String) (names : Place) : IO (List Place) := do
  let mut found : List Place := []
  for entry in ← (← IO.FS.realPath directory).readDir do
    let below := names ++ [entry.fileName]
    if ← entry.path.isDir then found := found ++ (← filesIn entry.path.toString below)
    else found := found ++ [below]
  return found

/-- The files of the system. -/
def systemFiles : FileSystem IO where
  read path := onFile (IO.FS.readFile path)
  isFile path := do
    match ← onFile (IO.FS.withFile path .read fun handle => handle.read 1) with
    | .ok _ => return true
    | .error _ => return false
  filesBelow path := do
    match ← onFile (filesIn path []) with
    | .ok found => return found
    | .error _ => return []
  write path text := onFile do
    if let some parent := Path.parent? path then
      if parent != "" then IO.FS.createDirAll parent
    IO.FS.writeFile path text

end Prebake

open Prebake in
/-- Runs the command that the arguments stand for. -/
def main (arguments : List String) : IO UInt32 := do
  match Command.ofArguments? arguments with
  | none =>
    IO.eprintln "usage: render FILE [--out FILE] [--pretty] | check FILE | render-dir DIR --out-dir DIR [--pretty]"
    return 2
  | some command =>
    let report ← command.run systemFiles
    IO.print report.output
    IO.eprint report.diagnostics
    return if report.success then 0 else 1
