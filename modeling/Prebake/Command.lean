import Prebake.Config.Reading
import Prebake.Discovery
import Prebake.Output
import Prebake.Registry.Reading

/-!
# The command line

Three tasks: to render a registry, to check one, and to render every registry below a directory. The configuration is
looked for beside the input unless its file is named.
-/

namespace Prebake

/-- What is to be done. -/
inductive Task where
  | render (registry : String) (output? : Option String) (pretty : Bool)
  | check (registry : String)
  | renderAll (directory outputDirectory : String) (pretty : Bool)
deriving DecidableEq, Repr

/-- A command: a task, and the file of the configuration if it is named. -/
structure Command where
  config? : Option String
  task : Task
deriving DecidableEq, Repr

/-! ### Arguments -/

/-- The arguments of a command as they have been read so far. -/
structure Arguments where
  config? : Option String := none
  output? : Option String := none
  outputDirectory? : Option String := none
  pretty : Bool := false
  /-- The arguments that belong to no option, the last one first. -/
  others : List String := []

namespace Arguments

/-- The text after a given beginning. -/
def after? (start : String) (argument : String) : Option String :=
  if start.toList.isPrefixOf argument.toList then some (String.ofList (argument.toList.drop start.length)) else none

/-- The value of an option that is written in one argument with it: after an equals sign, or, for an option of one
letter, at once. -/
def inlineValue? (argument : String) : Option (String × String) :=
  ["--config", "--out", "--out-dir", "-o"].findSome? fun option =>
    ((after? (option ++ "=") argument).map (option, ·)).or
      (if option = "-o" && argument != option then (after? option argument).map (option, ·) else none)

/-- The arguments with the value of an option. -/
def set? (arguments : Arguments) (option value : String) : Option Arguments :=
  match option with
  | "--config" => some { arguments with config? := some value }
  | "--out" | "-o" => some { arguments with output? := some value }
  | "--out-dir" => some { arguments with outputDirectory? := some value }
  | _ => none

/-- Reads the arguments that are left. After two hyphens there are no more options. -/
def read (arguments : Arguments) : List String → Option Arguments
  | [] => some arguments
  | "--" :: rest => some { arguments with others := rest.reverse ++ arguments.others }
  | "--pretty" :: rest => read { arguments with pretty := true } rest
  | [argument] => readOne arguments argument
  | argument :: value :: rest =>
    match arguments.set? argument value with
    | some next => next.read rest
    | none => do (← readOne arguments argument).read (value :: rest)
where
  /-- Reads an argument that does not need the next one. -/
  readOne (arguments : Arguments) (argument : String) : Option Arguments :=
    match inlineValue? argument with
    | some (option, value) => arguments.set? option value
    | none =>
      if argument = "-" || argument.toList.head? != some '-' then
        some { arguments with others := argument :: arguments.others }
      else none

/-- The task that the arguments ask for. -/
def task? (arguments : Arguments) : Option Task :=
  match arguments.others.reverse, arguments.outputDirectory? with
  | ["render", registry], none => some (.render registry arguments.output? arguments.pretty)
  | ["check", registry], none => some (.check registry)
  | ["render-dir", directory], some outputDirectory => some (.renderAll directory outputDirectory arguments.pretty)
  | _, _ => none

end Arguments

namespace Command

/-- The command that a list of arguments stands for. -/
def ofArguments? (arguments : List String) : Option Command := do
  let read ← Arguments.read {} arguments
  return ⟨read.config?, ← read.task?⟩

/-! ### Runs -/

/-- What a run leaves behind besides files. -/
structure Report where
  success : Bool
  output : String
  diagnostics : String
deriving DecidableEq, Repr

/-- The report of a run that ended with a failure. -/
def Report.ofFailure (failure : Failure) : Report where
  success := false
  output := ""
  diagnostics := "[" ++ failure.code ++ "] " ++ failure.message ++ "\n"
    ++ String.join (failure.hints.map fun hint => "  hint: " ++ hint ++ "\n")

/-- The name of the file of a configuration that is not named. -/
def configName : String := "ruxy.prerender.json"

variable {m : Type → Type} [Monad m]

/-- A computation on files that may end with a failure. -/
abbrev Run (m : Type → Type) (α : Type) : Type := ExceptT Failure m α

/-- The text of a file. -/
def readFile (files : FileSystem m) (path : String) : Run m String := do
  match ← files.read path with
  | .ok text => return text
  | .error fault => throw (.file path fault)

/-- Puts a text into a file. -/
def writeFile (files : FileSystem m) (path text : String) : Run m Unit := do
  match ← files.write path text with
  | .ok _ => return ()
  | .error fault => throw (.file path fault)

/-- The configuration in a file. -/
def readConfig (files : FileSystem m) (path : String) : Run m Config := do
  ExceptT.mk (pure (Config.parse (← readFile files path)))

/-- The configuration in the file that is named or, if there is one, in the file in a directory. -/
def findConfig (files : FileSystem m) (path? : Option String) (directory : String) : Run m Config := do
  match path? with
  | some path => readConfig files path
  | none =>
    let path := Path.join directory configName
    if ← files.isFile path then readConfig files path else return {}

/-- The registry in a file. Its route is the path of the file if it does not tell one. -/
def readRegistry (files : FileSystem m) (path : String) : Run m Registry := do
  let registry ← ExceptT.mk (pure (Registry.parse (← readFile files path)))
  return if registry.route?.isSome then registry else registry.withRoute path

/-- The text of the output for a registry. -/
def outputText (registry : Registry) (config : Config) (pretty : Bool) : Run m String :=
  ExceptT.mk (pure ((registry.prerender config).map (·.text pretty)))

/-- Renders every registry that was found into a directory. -/
def renderFound (files : FileSystem m) (config : Config) (outputDirectory : String) (pretty : Bool) :
    List Discovered → Run m Unit
  | [] => return ()
  | found :: rest => do
    let registry ← readRegistry files found.path
    let text ← outputText (registry.withRoute found.route) config pretty
    writeFile files (found.outputPath outputDirectory) text
    renderFound files config outputDirectory pretty rest

/-- The report of the failures of a registry, one after the other. -/
def checkReport (registry : Registry) : Report where
  success := registry.failures.isEmpty
  output := (Json.array (registry.failures.map (·.toJson registry.route?))).pretty ++ "\n"
  diagnostics := ""

/-- Does what a command asks for. -/
def perform (files : FileSystem m) (command : Command) : Run m Report := do
  match command.task with
  | .render path output? pretty =>
    let config ← findConfig files command.config? ((Path.parent? path).getD ".")
    let text ← outputText (← readRegistry files path) config pretty
    match output? with
    | some output =>
      writeFile files output text
      return ⟨true, "", ""⟩
    | none => return ⟨true, text ++ "\n", ""⟩
  | .check path => return checkReport (← readRegistry files path)
  | .renderAll directory outputDirectory pretty =>
    let config ← findConfig files command.config? directory
    renderFound files config outputDirectory pretty (← files.discover directory)
    return ⟨true, "", ""⟩

/-- Runs a command. -/
def run (files : FileSystem m) (command : Command) : m Report := do
  match ← (perform files command).run with
  | .ok report => return report
  | .error failure => return .ofFailure failure

end Command

end Prebake
