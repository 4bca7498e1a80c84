import Prebake.Proofs.Command

/-!
# Runs that fail

Whatever only reads leaves every file as it is, and a text that cannot be written is not written in part. So a run that renders
or checks one registry changes no file unless it succeeds. To render every registry below a directory is to read, render and
write one registry after the other: a run that fails at one of them leaves the outputs of all registries before it, whole, and
nothing else (`changedSince_of_failure`). So it may well leave something (`halfSite_changed`).
-/

namespace Prebake

namespace Command

variable {α β : Type} {tree next last after : FileTree} {path text directory out : String} {config : Config} {pretty : Bool}
  {failure : Failure}

/-! ## Steps that only read -/

/-- A run in two steps fails if the first step does, or the second on the tree that the first leaves. -/
theorem bind_on_eq_error_iff {first : Run (StateM FileTree) α} {rest : α → Run (StateM FileTree) β} :
    (first >>= rest).on tree = (.error failure, last) ↔
      first.on tree = (.error failure, last) ∨
        ∃ a next, first.on tree = (.ok a, next) ∧ (rest a).on next = (.error failure, last) := by
  rcases h : first.on tree with ⟨failure' | a, next⟩
  · rw [bind_on_error h]
    constructor
    · intro hlast
      cases hlast
      exact Or.inl rfl
    · rintro (hsame | ⟨a, next', hsame, -⟩)
      · cases hsame
        rfl
      · cases hsame
  · rw [bind_on h]
    constructor
    · intro hlast
      exact Or.inr ⟨a, next, rfl, hlast⟩
    · rintro (hsame | ⟨a', next', hsame, hlast⟩)
      · cases hsame
      · cases hsame
        exact hlast

/-- A computation that leaves every tree as it is. -/
def Reads (run : Run (StateM FileTree) α) : Prop := ∀ tree, (run.on tree).2 = tree

theorem Reads.eq {run : Run (StateM FileTree) α} {result : Except Failure α} (h : Reads run)
    (hrun : run.on tree = (result, next)) : next = tree := by
  have hsame := h tree
  rwa [hrun] at hsame

theorem reads_pure (a : α) : Reads (pure a) := fun _ => rfl

theorem reads_mk (result : Except Failure α) : Reads (ExceptT.mk (pure result)) := fun _ => rfl

/-- Steps that only read make a run that only reads. -/
theorem Reads.bind {first : Run (StateM FileTree) α} {rest : α → Run (StateM FileTree) β} (h : Reads first)
    (hrest : ∀ a, Reads (rest a)) : Reads (first >>= rest) := by
  intro tree
  rcases hfirst : first.on tree with ⟨failure | a, next⟩
  · rw [bind_on_error hfirst]
    exact h.eq hfirst
  · rw [bind_on hfirst, hrest a next]
    exact h.eq hfirst

/-- To read a file is to read only, whether it succeeds or not. -/
theorem reads_readFile (path : String) : Reads (readFile FileTree.system path) := by
  intro tree
  rw [readFile_on]

theorem reads_readRegistry (path : String) : Reads (readRegistry FileTree.system path) :=
  (reads_readFile path).bind fun _ => (reads_mk _).bind fun _ => reads_pure _

/-- To render a registry takes no files at all. -/
theorem reads_outputText (registry : Registry) (config : Config) (pretty : Bool) :
    Reads (outputText registry config pretty : Run (StateM FileTree) String) := reads_mk _

/-- To look for a configuration is to read only. -/
theorem reads_findConfig (path? : Option String) (directory : String) :
    Reads (findConfig FileTree.system path? directory) := by
  have hconfig : ∀ path, Reads (readConfig FileTree.system path) := fun path => (reads_readFile path).bind fun _ => reads_mk _
  cases path? with
  | some path => exact hconfig path
  | none =>
    refine Reads.bind (fun _ => rfl) fun found => ?_
    cases found with
    | true => exact hconfig _
    | false => exact reads_pure _

/-- A computation that leaves the tree as it is unless it succeeds. -/
def FailsCleanly (run : Run (StateM FileTree) α) : Prop :=
  ∀ tree failure next, run.on tree = (.error failure, next) → next = tree

/-- A run that only reads changes nothing when it fails. -/
theorem Reads.failsCleanly {run : Run (StateM FileTree) α} (h : Reads run) : FailsCleanly run := fun _ _ _ => h.eq

/-- After steps that only read, a run fails as cleanly as what remains of it. -/
theorem Reads.bind_failsCleanly {first : Run (StateM FileTree) α} {rest : α → Run (StateM FileTree) β} (h : Reads first)
    (hrest : ∀ a, FailsCleanly (rest a)) : FailsCleanly (first >>= rest) := by
  intro tree failure last hfailed
  rcases bind_on_eq_error_iff.1 hfailed with hfirst | ⟨a, next, hfirst, hlast⟩
  · exact h.eq hfirst
  · exact (hrest a _ _ _ hlast).trans (h.eq hfirst)

/-- A text that cannot be written leaves every file as it is, and so does what only writes a text. -/
theorem failsCleanly_writeFile (path text : String) (a : α) :
    FailsCleanly (do writeFile FileTree.system path text; return a) := by
  intro tree failure last hfailed
  rcases bind_on_eq_error_iff.1 hfailed with hwrite | ⟨_, next, -, hpure⟩
  · have hlift := lift_on (write_run path text tree)
    cases hresult : tree.write path text with
    | ok made =>
      have hmade := writeFile_on_eq_ok_iff.2 hresult
      cases hmade.symm.trans hwrite
    | error fault =>
      rw [hresult] at hlift
      cases ((bind_on hlift).trans rfl).symm.trans hwrite
      rfl
  · cases hpure

/-! ## Registries below a directory -/

/-- Rendering some registries and then others is rendering all of them. -/
theorem renderFound_append (done rest : List Discovered) :
    renderFound FileTree.system config out pretty (done ++ rest) = (do
      renderFound FileTree.system config out pretty done
      renderFound FileTree.system config out pretty rest) := by
  induction done with
  | nil => rw [renderFound, pure_bind, List.nil_append]
  | cons found done ih => simp only [List.cons_append, renderFound, ih, bind_assoc]

/-- To render one registry changes nothing unless it succeeds. -/
theorem failsCleanly_renderFound_singleton (found : Discovered) :
    FailsCleanly (renderFound FileTree.system config out pretty [found]) :=
  (reads_readRegistry found.path).bind_failsCleanly fun _ =>
    (reads_outputText _ config pretty).bind_failsCleanly fun _ => failsCleanly_writeFile _ _ ()

/-- A run rendered the registries `done` one after the other and could not render the next one. -/
structure StopsAt (config : Config) (out : String) (pretty : Bool) (done : List Discovered) (next : Discovered)
    (failure : Failure) (tree after : FileTree) : Prop where
  rendered : (renderFound FileTree.system config out pretty done).on tree = (.ok (), after)
  failed : (renderFound FileTree.system config out pretty [next]).on after = (.error failure, after)

/-- Rendering stops at the first registry that fails. -/
theorem stopsAt_of_renderFound {founds : List Discovered}
    (h : (renderFound FileTree.system config out pretty founds).on tree = (.error failure, after)) :
    ∃ done next rest, founds = done ++ next :: rest ∧ StopsAt config out pretty done next failure tree after := by
  induction founds generalizing tree with
  | nil => cases h
  | cons found founds ih =>
    rw [← List.singleton_append, renderFound_append] at h
    rcases bind_on_eq_error_iff.1 h with hfirst | ⟨_, middle, hfirst, hrest⟩
    · -- what fails first leaves the tree as those before it left it
      cases failsCleanly_renderFound_singleton found _ _ _ hfirst
      exact ⟨[], found, founds, rfl, rfl, hfirst⟩
    · obtain ⟨done, next, rest, rfl, hstops⟩ := ih hrest
      refine ⟨found :: done, next, rest, rfl, ?_, hstops.failed⟩
      rw [← List.singleton_append, renderFound_append, bind_on hfirst]
      exact hstops.rendered

/-- The place and the text of the output for a registry, whose file is read in one tree and written in another. -/
def IsOutput (config : Config) (out : String) (pretty : Bool) (tree after : FileTree) (found : Discovered) (place : Place)
    (text : String) : Prop :=
  ∃ source, tree.read found.path = .ok source ∧ rendition config pretty found.route source = .ok text ∧
    after.locate (found.outputPath out) = .ok place

/-- When some of the registries below a directory have been rendered, their outputs have been written and nothing else. -/
theorem mem_changedSince_of_rendered (hnames : tree.WellNamed) {done rest : List Discovered}
    (hfounds : registriesBelow tree directory = done ++ rest)
    (h : (renderFound FileTree.system config out pretty done).on tree = (.ok (), after)) (place : Place) (text : String) :
    (place, text) ∈ after.changedSince tree ↔ tree.find? place ≠ some (.file text) ∧
      ∃ found ∈ done, IsOutput config out pretty tree after found place text := by
  have hdone : ∀ found ∈ done, found ∈ registriesBelow tree directory :=
    fun found hfound => hfounds ▸ List.mem_append_left rest hfound
  -- those that were rendered have their outputs apart, as all that were found have
  have hapart : Discovered.Apart out done := by
    have hall : Discovered.Apart out (done ++ rest) := hfounds ▸ Discovered.apart_ofPlaces hnames directory out
    exact ⟨(List.pairwise_append.1 hall.outputs).1, fun found hfound other hother =>
      hall.registries found (List.mem_append_left rest hfound) other (List.mem_append_left rest hother)⟩
  obtain ⟨hgrows, hrendered⟩ := rendered_of_renderFound_on hapart h
  rw [FileTree.mem_changedSince_iff, and_comm]
  refine and_congr_right fun hnew => ?_
  constructor
  · intro hafter
    have hplace : place ∈ outputPlaces after out done := by
      -- a file changes only where an output is put
      by_contra hout
      exact hnew ((hgrows.files place text hout).1 hafter)
    obtain ⟨found, hfound, hlocate⟩ := hplace
    obtain ⟨source, written, above, name, hsource, htext, hholds⟩ := hrendered found hfound
    cases hlocate.symm.trans hholds.locate
    cases hafter.symm.trans hholds.found
    rw [read_eq_of_grows hnames hdone hgrows (hdone found hfound)] at hsource
    exact ⟨found, hfound, source, hsource, htext, hlocate⟩
  · rintro ⟨found, hfound, source, hsource, htext, hlocate⟩
    obtain ⟨source', written, above, name, hsource', htext', hholds⟩ := hrendered found hfound
    rw [read_eq_of_grows hnames hdone hgrows (hdone found hfound), hsource] at hsource'
    cases hsource'
    cases htext.symm.trans htext'
    cases hlocate.symm.trans hholds.locate
    exact hholds.found

/-! ## Whole runs -/

variable {command : Command} {report : Report}

/-- A run that fails reports a failure, or it has checked a registry and found some. -/
theorem perform_of_failed (h : (run FileTree.system command).run tree = (report, after)) (hfailed : report.success = false) :
    (∃ failure, (perform FileTree.system command).on tree = (.error failure, after) ∧ report = .ofFailure failure) ∨
      (perform FileTree.system command).on tree = (.ok report, after) := by
  rcases hperform : (perform FileTree.system command).on tree with ⟨failure | report', next⟩
  · cases (run_eq_of_error hperform).symm.trans h
    exact Or.inl ⟨failure, rfl, rfl⟩
  · cases (run_eq_of_ok hperform).symm.trans h
    exact Or.inr rfl

/-- A run that renders a registry changes nothing unless it succeeds. -/
theorem failsCleanly_perform_render (config? : Option String) (registry : String) (output? : Option String) :
    FailsCleanly (perform FileTree.system ⟨config?, .render registry output? pretty⟩) := by
  refine (reads_findConfig config? _).bind_failsCleanly fun config => ?_
  refine (reads_readRegistry registry).bind_failsCleanly fun _ => ?_
  refine (reads_outputText _ config pretty).bind_failsCleanly fun text => ?_
  cases output? with
  | some output => exact failsCleanly_writeFile output text _
  | none => exact (reads_pure _).failsCleanly

/-- A run that checks a registry only reads. -/
theorem reads_perform_check (config? : Option String) (registry : String) :
    Reads (perform FileTree.system ⟨config?, .check registry⟩) :=
  (reads_readRegistry registry).bind fun _ => reads_pure _

/-- A run that renders a registry reports success unless it fails. -/
theorem success_of_perform_render {config? output? : Option String} {registry : String}
    (h : (perform FileTree.system ⟨config?, .render registry output? pretty⟩).on tree = (.ok report, after)) :
    report.success = true := by
  obtain ⟨config, _, -, h⟩ := bind_on_eq_ok_iff.1 h
  obtain ⟨registry, _, -, h⟩ := bind_on_eq_ok_iff.1 h
  obtain ⟨text, _, -, h⟩ := bind_on_eq_ok_iff.1 h
  cases output? with
  | some output =>
    obtain ⟨_, _, -, h⟩ := bind_on_eq_ok_iff.1 h
    obtain ⟨rfl, -⟩ := pure_on_eq_ok_iff.1 h
    rfl
  | none =>
    obtain ⟨rfl, -⟩ := pure_on_eq_ok_iff.1 h
    rfl

/-- A run over the registries below a directory fails before it renders any, or it stops at one of them. -/
theorem perform_renderAll_on_eq_error {config? : Option String}
    (h : (perform FileTree.system ⟨config?, .renderAll directory out pretty⟩).on tree = (.error failure, after)) :
    after = tree ∨ ∃ config done next rest, registriesBelow tree directory = done ++ next :: rest ∧
      StopsAt config out pretty done next failure tree after := by
  rcases bind_on_eq_error_iff.1 h with hconfig | ⟨config, next, hconfig, hrest⟩
  · exact Or.inl ((reads_findConfig config? directory).eq hconfig)
  · obtain rfl := (reads_findConfig config? directory).eq hconfig
    rw [bind_on (discover_on directory next)] at hrest
    rcases bind_on_eq_error_iff.1 hrest with hrender | ⟨_, _, -, hpure⟩
    · exact Or.inr ⟨config, stopsAt_of_renderFound hrender⟩
    · cases hpure

/-- A run that fails changes no file, unless it was to render every registry below a directory: then it stopped at one of them,
and what is new or changed are the outputs of those before it, each of them whole. -/
theorem changedSince_of_failure (hnames : tree.WellNamed)
    (hrun : (run FileTree.system command).run tree = (report, after)) (hfailed : report.success = false) :
    after.changedSince tree = [] ∨
      ∃ directory out pretty config done next rest failure, command.task = .renderAll directory out pretty ∧
        registriesBelow tree directory = done ++ next :: rest ∧ StopsAt config out pretty done next failure tree after ∧
        report = .ofFailure failure ∧
        ∀ place text, (place, text) ∈ after.changedSince tree ↔ tree.find? place ≠ some (.file text) ∧
          ∃ found ∈ done, IsOutput config out pretty tree after found place text := by
  obtain ⟨config?, task⟩ := command
  have hnone : after = tree → after.changedSince tree = [] := by
    rintro rfl
    exact FileTree.changedSince_self after
  rcases perform_of_failed hrun hfailed with ⟨failure, hperform, rfl⟩ | hperform
  · cases task with
    | render registry output? pretty =>
      exact Or.inl (hnone (failsCleanly_perform_render config? registry output? _ _ _ hperform))
    | check registry => exact Or.inl (hnone ((reads_perform_check config? registry).eq hperform))
    | renderAll directory out pretty =>
      rcases perform_renderAll_on_eq_error hperform with hsame | ⟨config, done, next, rest, hfounds, hstops⟩
      · exact Or.inl (hnone hsame)
      · exact Or.inr ⟨directory, out, pretty, config, done, next, rest, failure, rfl, hfounds, hstops, rfl,
          mem_changedSince_of_rendered hnames hfounds hstops.rendered⟩
  · -- a run that does all it should and does not succeed is a check
    cases task with
    | render registry output? pretty => cases (success_of_perform_render hperform).symm.trans hfailed
    | check registry => exact Or.inl (hnone ((reads_perform_check config? registry).eq hperform))
    | renderAll directory out pretty =>
      obtain ⟨config, _, -, h⟩ := bind_on_eq_ok_iff.1 hperform
      obtain ⟨founds, _, -, h⟩ := bind_on_eq_ok_iff.1 h
      obtain ⟨_, _, -, h⟩ := bind_on_eq_ok_iff.1 h
      obtain ⟨rfl, -⟩ := pure_on_eq_ok_iff.1 h
      cases hfailed

/-- Two registries, of which only the first can be rendered. -/
def halfSite : FileTree where
  entries := [
    (["app"], .directory),
    (["app", "a.registry.json"],
      .file "\x7b\"records\":[\x7b\"id\":\"a\",\"tag\":\"p\",\"isPrimaryBranch\":true\x7d]\x7d"),
    (["app", "b.registry.json"], .file "\x7b\x7d")]
  nodup := by decide
  rooted := by decide

/-- A run on `halfSite`. -/
def halfSiteRun : Report × FileTree := (run FileTree.system (renderAll "app" "out" false)).run halfSite

/-- What becomes of the registries of `halfSite`, one after the other. -/
def halfSiteRendering : Except Failure Unit × FileTree :=
  (renderFound FileTree.system {} "out" false [⟨"app/a.registry.json", "a"⟩, ⟨"app/b.registry.json", "b"⟩]).on halfSite

/-- The run fails, and it leaves what its rendering leaves. -/
theorem halfSiteRun_eq : halfSiteRun.1.success = false ∧ halfSiteRun.2 = halfSiteRendering.2 := by
  have hfounds : registriesBelow halfSite "app" = [⟨"app/a.registry.json", "a"⟩, ⟨"app/b.registry.json", "b"⟩] :=
    List.mergeSort_of_pairwise (by decide +kernel)
  have hconfig : (findConfig FileTree.system none "app").on halfSite = (.ok {}, halfSite) := rfl
  have hfailed : halfSiteRendering.1.toOption = none := by decide +kernel
  rcases hrender : halfSiteRendering with ⟨failure | _, after⟩
  · have hrun : halfSiteRun = (.ofFailure failure, after) := by
      refine run_eq_of_error ?_
      rw [perform_renderAll, bind_on hconfig, bind_on (discover_on "app" halfSite), hfounds]
      exact bind_on_error hrender
    rw [hrun]
    exact ⟨rfl, rfl⟩
  · rw [hrender] at hfailed
    cases hfailed

/-- The run on `halfSite` fails and has changed a file. -/
theorem halfSite_changed : halfSiteRun.1.success = false ∧
    (halfSiteRun.2.changedSince halfSite).map (·.1) = [["out", "a.prerender.json"]] := by
  obtain ⟨hfailed, hafter⟩ := halfSiteRun_eq
  rw [hafter]
  exact ⟨hfailed, by decide +kernel⟩

/-- It stopped at a registry and left the outputs of those before it. -/
theorem halfSite_stops : halfSite.WellNamed ∧ halfSiteRun.1.success = false ∧
    ∃ config done next rest failure, registriesBelow halfSite "app" = done ++ next :: rest ∧
      StopsAt config "out" false done next failure halfSite halfSiteRun.2 ∧
      ∀ place text, (place, text) ∈ halfSiteRun.2.changedSince halfSite ↔ halfSite.find? place ≠ some (.file text) ∧
        ∃ found ∈ done, IsOutput config "out" false halfSite halfSiteRun.2 found place text := by
  have hnames : halfSite.WellNamed := by decide
  obtain ⟨hfailed, hafter⟩ := halfSiteRun_eq
  have hsome : halfSiteRun.2.changedSince halfSite ≠ [] := by
    rw [hafter]
    decide +kernel
  have hrun : (run FileTree.system (renderAll "app" "out" false)).run halfSite = (halfSiteRun.1, halfSiteRun.2) := rfl
  obtain ⟨_, _, _, config, done, next, rest, failure, htask, hfounds, hstops, -, houtputs⟩ :=
    (changedSince_of_failure hnames hrun hfailed).resolve_left hsome
  cases htask
  exact ⟨hnames, hfailed, config, done, next, rest, failure, hfounds, hstops, houtputs⟩

end Command

end Prebake
