import Prebake.Command
import Prebake.Proofs.Discovery
import Prebake.Proofs.Except
import Prebake.Proofs.FileTree.Writing

/-!
# Runs on file trees

What the steps of a run do to a file tree. To render the registries that were found is to read, render and write one after the
other. If no output is put in the place of another one or of a registry (`Discovered.Apart`), then every output stands where it
was written when all are rendered, and to render them again changes nothing.
-/

namespace Prebake

namespace Command

variable {α β : Type} {tree next last : FileTree} {path text directory out : String} {config : Config} {pretty : Bool}

/-! ## Steps -/

/-- The result of a computation on a file tree, with the tree that it leaves. -/
def Run.on (run : Run (StateM FileTree) α) (tree : FileTree) : Except Failure α × FileTree := StateT.run (ExceptT.run run) tree

/-- A run goes on from where its first step leads. -/
theorem bind_on {first : Run (StateM FileTree) α} {rest : α → Run (StateM FileTree) β} {a : α}
    (h : first.on tree = (.ok a, next)) : (first >>= rest).on tree = (rest a).on next := by
  rw [Run.on, ExceptT.run_bind, StateT.run_bind]
  rw [Run.on] at h
  rw [h]
  rfl

/-- A run ends where its first step fails. -/
theorem bind_on_error {first : Run (StateM FileTree) α} {rest : α → Run (StateM FileTree) β} {failure : Failure}
    (h : first.on tree = (.error failure, next)) : (first >>= rest).on tree = (.error failure, next) := by
  rw [Run.on, ExceptT.run_bind, StateT.run_bind]
  rw [Run.on] at h
  rw [h]
  rfl

/-- A run in two steps succeeds if both do, the second on the tree that the first leaves. -/
theorem bind_on_eq_ok_iff {first : Run (StateM FileTree) α} {rest : α → Run (StateM FileTree) β} {b : β} :
    (first >>= rest).on tree = (.ok b, last) ↔
      ∃ a next, first.on tree = (.ok a, next) ∧ (rest a).on next = (.ok b, last) := by
  rcases h : first.on tree with ⟨failure | a, next⟩
  · rw [bind_on_error h]
    constructor
    · intro hlast
      cases hlast
    · rintro ⟨a, next', hsame, -⟩
      cases hsame
  · rw [bind_on h]
    constructor
    · intro hlast
      exact ⟨a, next, rfl, hlast⟩
    · rintro ⟨a', next', hsame, hlast⟩
      cases hsame
      exact hlast

theorem pure_on (a : α) (tree : FileTree) : (pure a : Run (StateM FileTree) α).on tree = (.ok a, tree) := rfl

theorem pure_on_eq_ok_iff {a b : α} : (pure a : Run (StateM FileTree) α).on tree = (.ok b, next) ↔ b = a ∧ next = tree := by
  rw [pure_on, Prod.mk.injEq, Except.ok.injEq, eq_comm, eq_comm (a := tree)]

/-- Whether a step that looks at no files succeeds does not depend on the tree. -/
theorem mk_on_eq_ok_iff {result : Except Failure α} {a : α} :
    Run.on (ExceptT.mk (pure result)) tree = (.ok a, next) ↔ result = .ok a ∧ next = tree := by
  refine (show _ ↔ (result, tree) = (.ok a, next) from Iff.rfl).trans ?_
  rw [Prod.mk.injEq, eq_comm (a := tree)]

/-- Reading a file leaves the tree alone, and a fault in it names the file. -/
theorem readFile_on (path : String) (tree : FileTree) :
    (readFile FileTree.system path).on tree = ((tree.read path).mapError (.file path), tree) := by
  refine (bind_on (a := tree.read path) rfl).trans ?_
  cases tree.read path <;> rfl

/-- Writing leads to the new tree, or leaves the old one if it fails. -/
theorem write_run (path text : String) (tree : FileTree) : (FileTree.system.write path text).run tree =
    ((tree.write path text).map fun _ => (), (tree.write path text).toOption.getD tree) := by
  simp only [FileTree.system, StateT.run_bind, StateT.run_get, pure_bind]
  cases tree.write path text with
  | ok made => rfl
  | error fault => rfl

/-- A step that cannot fail succeeds. -/
theorem lift_on {action : StateM FileTree α} {a : α} (h : action.run tree = (a, next)) :
    Run.on (monadLift action) tree = (.ok a, next) := by
  show (fun result => (Except.ok result.1, result.2)) (action.run tree) = _
  rw [h]

/-- Writing a file succeeds if the tree takes it. -/
theorem writeFile_on_eq_ok_iff :
    (writeFile FileTree.system path text).on tree = (.ok (), next) ↔ tree.write path text = .ok next := by
  have hlift := lift_on (write_run path text tree)
  cases hwrite : tree.write path text with
  | ok made =>
    rw [hwrite] at hlift
    have hon : (writeFile FileTree.system path text).on tree = (.ok (), made) := (bind_on hlift).trans rfl
    rw [hon, Prod.mk.injEq, and_iff_right rfl, Except.ok.injEq]
  | error fault =>
    rw [hwrite] at hlift
    have hon : (writeFile FileTree.system path text).on tree = (.error (.file path fault), tree) := (bind_on hlift).trans rfl
    rw [hon]
    simp

theorem isFile_on (path : String) (tree : FileTree) :
    Run.on (monadLift (FileTree.system.isFile path)) tree = (.ok (tree.isFile path), tree) := rfl

/-- Where there is a file of the name for configurations, it must hold one. -/
theorem findConfig_on_of_read (h : tree.read (Path.join directory configName) = .ok text) :
    (findConfig FileTree.system none directory).on tree = (Config.parse text, tree) := by
  have hfile := isFile_on (Path.join directory configName) tree
  have hread := readFile_on (Path.join directory configName) tree
  rw [FileTree.isFile, h] at hfile
  rw [h] at hread
  exact (bind_on hfile).trans (bind_on hread)

/-- Without such a file the configuration is the usual one. -/
theorem findConfig_on_of_error {fault : FileFault} (h : tree.read (Path.join directory configName) = .error fault) :
    (findConfig FileTree.system none directory).on tree = (.ok {}, tree) := by
  have hfile := isFile_on (Path.join directory configName) tree
  rw [FileTree.isFile, h] at hfile
  exact (bind_on hfile).trans rfl

/-- The configuration is the one in the directory, and the default where none can be read there. -/
theorem findConfig_on_eq_ok_iff : (findConfig FileTree.system none directory).on tree = (.ok config, next) ↔ next = tree ∧
    ((∃ text, tree.read (Path.join directory configName) = .ok text ∧ Config.parse text = .ok config) ∨
      (∃ fault, tree.read (Path.join directory configName) = .error fault) ∧ config = {}) := by
  cases h : tree.read (Path.join directory configName) with
  | ok text =>
    rw [findConfig_on_of_read h, Prod.mk.injEq, and_comm, eq_comm]
    simp
  | error fault =>
    rw [findConfig_on_of_error h, Prod.mk.injEq, and_comm, eq_comm, Except.ok.injEq, eq_comm (a := Config.mk _ _ _)]
    simp

/-! ## Rendering -/

/-- The text of the output for a registry that was found on a route, from the text of its file. -/
def rendition (config : Config) (pretty : Bool) (route source : String) : Except Failure String := do
  let parsed ← Registry.parse source
  ((parsed.withRoute route).prerender config).map (·.text pretty)

/-- Every output tells the route on which its registry was found. -/
theorem exists_output {route source : String} (h : rendition config pretty route source = .ok text) :
    ∃ output : Output, output.route? = some route ∧ output.text pretty = text := by
  obtain ⟨parsed, -, h⟩ := bind_eq_ok_iff.1 h
  obtain ⟨output, houtput, htext⟩ := map_eq_ok_iff.1 h
  obtain ⟨resolution, -, h⟩ := bind_eq_ok_iff.1 houtput
  obtain ⟨trees, -, h⟩ := bind_eq_ok_iff.1 h
  cases h
  exact ⟨_, rfl, htext⟩

theorem readFile_on_eq_ok_iff :
    (readFile FileTree.system path).on tree = (.ok text, next) ↔ tree.read path = .ok text ∧ next = tree := by
  rw [readFile_on, Prod.mk.injEq, mapError_eq_ok_iff, eq_comm (a := tree)]

/-- A registry is read if its file is there and tells of one. Without a route it gets the path for one. -/
theorem readRegistry_on_eq_ok_iff {registry : Registry} :
    (readRegistry FileTree.system path).on tree = (.ok registry, next) ↔ next = tree ∧ ∃ source parsed,
      tree.read path = .ok source ∧ Registry.parse source = .ok parsed ∧
        registry = if parsed.route?.isSome then parsed else parsed.withRoute path := by
  simp only [readRegistry, bind_on_eq_ok_iff, readFile_on_eq_ok_iff, mk_on_eq_ok_iff, pure_on_eq_ok_iff]
  constructor
  · rintro ⟨source, _, ⟨hsource, rfl⟩, parsed, _, ⟨hparsed, rfl⟩, hregistry, rfl⟩
    exact ⟨rfl, source, parsed, hsource, hparsed, hregistry⟩
  · rintro ⟨rfl, source, parsed, hsource, hparsed, hregistry⟩
    exact ⟨source, next, ⟨hsource, rfl⟩, parsed, next, ⟨hparsed, rfl⟩, hregistry, rfl⟩

/-- Whatever route a registry tells, it is rendered for the one on which it was found. -/
theorem withRoute_of_read (parsed : Registry) (path route : String) :
    (if parsed.route?.isSome then parsed else parsed.withRoute path).withRoute route = parsed.withRoute route := by
  split_ifs
  · rfl
  · rfl

theorem renderFound_nil_on_eq_ok_iff :
    (renderFound FileTree.system config out pretty []).on tree = (.ok (), last) ↔ last = tree := by
  rw [renderFound, pure_on_eq_ok_iff, and_iff_right rfl]

/-- The first registry is read, rendered and written before the others are looked at. -/
theorem renderFound_cons_on_eq_ok_iff {found : Discovered} {founds : List Discovered} :
    (renderFound FileTree.system config out pretty (found :: founds)).on tree = (.ok (), last) ↔
      ∃ source text next, tree.read found.path = .ok source ∧ rendition config pretty found.route source = .ok text ∧
        tree.write (found.outputPath out) text = .ok next ∧
          (renderFound FileTree.system config out pretty founds).on next = (.ok (), last) := by
  simp only [renderFound, bind_on_eq_ok_iff, readRegistry_on_eq_ok_iff, outputText, mk_on_eq_ok_iff]
  constructor
  · rintro ⟨_, _, ⟨rfl, source, parsed, hsource, hparsed, rfl⟩, text, _, ⟨htext, rfl⟩, _, next, hwrite, hrest⟩
    rw [withRoute_of_read] at htext
    exact ⟨source, text, next, hsource, bind_eq_ok_iff.2 ⟨parsed, hparsed, htext⟩, writeFile_on_eq_ok_iff.1 hwrite, hrest⟩
  · rintro ⟨source, text, next, hsource, htext, hwrite, hrest⟩
    obtain ⟨parsed, hparsed, htext⟩ := bind_eq_ok_iff.1 htext
    refine ⟨_, tree, ⟨rfl, source, parsed, hsource, hparsed, rfl⟩, text, tree, ⟨?_, rfl⟩, (), next,
      writeFile_on_eq_ok_iff.2 hwrite, hrest⟩
    rw [withRoute_of_read]
    exact htext

/-! ## All that was found -/

variable {founds : List Discovered}

/-- The places of the outputs of registries. -/
def outputPlaces (tree : FileTree) (out : String) (founds : List Discovered) : Set Place :=
  {place | ∃ found ∈ founds, tree.locate (found.outputPath out) = .ok place}

/-- Every registry that was found can be rendered, and its output holds what it is rendered to. -/
def AllRendered (config : Config) (out : String) (pretty : Bool) (founds : List Discovered) (tree : FileTree) : Prop :=
  ∀ found ∈ founds, ∃ source text above name, tree.read found.path = .ok source ∧
    rendition config pretty found.route source = .ok text ∧ tree.Holds (found.outputPath out) text above name

/-- What has been rendered may be rendered again. -/
theorem renderFound_on_of_rendered (h : AllRendered config out pretty founds tree) :
    (renderFound FileTree.system config out pretty founds).on tree = (.ok (), tree) := by
  induction founds with
  | nil => exact renderFound_nil_on_eq_ok_iff.2 rfl
  | cons found founds ih =>
    obtain ⟨hfound, hrest⟩ := List.forall_mem_cons.1 h
    obtain ⟨source, text, above, name, hsource, htext, hholds⟩ := hfound
    exact renderFound_cons_on_eq_ok_iff.2 ⟨source, text, tree, hsource, htext, hholds.write_eq_self, ih hrest⟩

/-- Rendering leaves nothing but outputs behind, and each of them stays as it was written. -/
theorem rendered_of_renderFound_on (hapart : Discovered.Apart out founds)
    (h : (renderFound FileTree.system config out pretty founds).on tree = (.ok (), last)) :
    tree.Grows (outputPlaces last out founds) last ∧ AllRendered config out pretty founds last := by
  induction founds generalizing tree with
  | nil =>
    cases renderFound_nil_on_eq_ok_iff.1 h
    exact ⟨FileTree.Grows.refl _ _, List.forall_mem_nil _⟩
  | cons found founds ih =>
    obtain ⟨source, text, next, hsource, htext, hwrite, hrest⟩ := renderFound_cons_on_eq_ok_iff.1 h
    obtain ⟨hfirst, houtputs⟩ := List.pairwise_cons.1 hapart.outputs
    have hregistries := fun other hother => hapart.registries found List.mem_cons_self other hother last
    obtain ⟨hgrows, hrendered⟩ := ih ⟨houtputs, fun a ha b hb =>
      hapart.registries a (List.mem_cons_of_mem _ ha) b (List.mem_cons_of_mem _ hb)⟩ hrest
    obtain ⟨above, name, hholds, hwritten⟩ := FileTree.write_eq_ok hwrite
    have hplace : last.locate (found.outputPath out) = .ok (above ++ [name]) := hgrows.locate hholds.locate
    have hall : tree.Grows (outputPlaces last out (found :: founds)) last := by
      refine (hwritten.mono ?_).trans (hgrows.mono ?_)
      · rintro _ rfl
        exact ⟨found, List.mem_cons_self, hplace⟩
      · rintro place ⟨other, hother, hlocate⟩
        exact ⟨other, List.mem_cons_of_mem _ hother, hlocate⟩
    refine ⟨hall, List.forall_mem_cons.2 ⟨⟨source, text, above, name, hall.read ?_ hsource, htext, ?_⟩, hrendered⟩⟩
    · rintro place ⟨other, hother, hlocate⟩ hpath
      exact hregistries other hother place hpath hlocate
    · refine hholds.mono hgrows ?_
      rintro ⟨other, hother, hlocate⟩
      exact hfirst other hother last _ hplace hlocate

/-! ## Whole runs -/

variable {command : Command} {report : Report} {failure : Failure}

/-- The command to render every registry below a directory with the configuration that is found there. -/
def renderAll (directory out : String) (pretty : Bool) : Command := ⟨none, .renderAll directory out pretty⟩

/-- The registries below a directory. -/
def registriesBelow (tree : FileTree) (directory : String) : List Discovered :=
  Discovered.ofPlaces directory (tree.filesBelow directory)

/-- A registry that was found has the same text after some of those found have been rendered. -/
theorem read_eq_of_grows (hnames : tree.WellNamed) {done : List Discovered}
    (hdone : ∀ found ∈ done, found ∈ registriesBelow tree directory) (hgrows : tree.Grows (outputPlaces after out done) after)
    {found : Discovered} (hfound : found ∈ registriesBelow tree directory) : after.read found.path = tree.read found.path := by
  obtain ⟨before, name, base, text, hstands, hbase, htext⟩ := Discovered.stands_of_mem hnames hfound
  have hread : tree.read found.path = .ok text := by
    rw [Discovered.path_of_mem hfound]
    exact FileTree.read_eq_ok_iff.2 ⟨_, FileTree.locate_join_of_find? hstands.registry hbase htext, htext⟩
  rw [hread]
  refine hgrows.read ?_ hread
  rintro place ⟨other, hother, hlocate⟩ hplace
  exact (Discovered.apart_ofPlaces hnames directory out).registries found hfound other (hdone other hother) after place hplace
    hlocate

theorem discover_on (directory : String) (tree : FileTree) :
    Run.on (monadLift (FileTree.system.discover directory)) tree = (.ok (registriesBelow tree directory), tree) := rfl

/-- What a run over a directory is made of. -/
theorem perform_renderAll (directory out : String) (pretty : Bool) :
    perform FileTree.system (renderAll directory out pretty) = (do
      let config ← findConfig FileTree.system none directory
      renderFound FileTree.system config out pretty (← FileTree.system.discover directory)
      return ⟨true, "", ""⟩) := rfl

/-- A run over a directory succeeds if the configuration is fine and so is each registry in turn. -/
theorem perform_on_eq_ok_iff :
    (perform FileTree.system (renderAll directory out pretty)).on tree = (.ok report, last) ↔
      ∃ config, (findConfig FileTree.system none directory).on tree = (.ok config, tree) ∧
        (renderFound FileTree.system config out pretty (registriesBelow tree directory)).on tree = (.ok (), last) ∧
          report = ⟨true, "", ""⟩ := by
  rw [perform_renderAll, bind_on_eq_ok_iff]
  refine exists_congr fun config => ?_
  constructor
  · rintro ⟨next, hconfig, h⟩
    obtain ⟨rfl, -⟩ := findConfig_on_eq_ok_iff.1 hconfig
    rw [bind_on (discover_on directory next)] at h
    obtain ⟨_, _, hrender, h⟩ := bind_on_eq_ok_iff.1 h
    obtain ⟨rfl, rfl⟩ := pure_on_eq_ok_iff.1 h
    exact ⟨hconfig, hrender, rfl⟩
  · rintro ⟨hconfig, hrender, rfl⟩
    exact ⟨tree, hconfig, (bind_on (discover_on directory tree)).trans ((bind_on hrender).trans rfl)⟩

/-- A run that succeeds reports its result. -/
theorem run_eq_of_ok (h : (perform FileTree.system command).on tree = (.ok report, next)) :
    (run FileTree.system command).run tree = (report, next) := by
  rw [run, StateT.run_bind]
  rw [Run.on] at h
  rw [h]
  rfl

/-- A run that fails reports its failure. -/
theorem run_eq_of_error (h : (perform FileTree.system command).on tree = (.error failure, next)) :
    (run FileTree.system command).run tree = (.ofFailure failure, next) := by
  rw [run, StateT.run_bind]
  rw [Run.on] at h
  rw [h]
  rfl

/-- A run succeeds only if everything that it does succeeds. -/
theorem perform_of_run (h : (run FileTree.system command).run tree = (report, next)) (hsuccess : report.success = true) :
    (perform FileTree.system command).on tree = (.ok report, next) := by
  rcases hperform : (perform FileTree.system command).on tree with ⟨failure | report', next'⟩
  · cases (run_eq_of_error hperform).symm.trans h
    cases hsuccess
  · cases (run_eq_of_ok hperform).symm.trans h
    rfl

end Command

end Prebake
