import Prebake.Proofs.Command
import Prebake.Proofs.Config

/-!
# Rendering twice

After all registries below a directory have been rendered, the same registries are found there with the same texts, and to
render them once more changes no file. It succeeds again, unless the first run put an output in the place of the file that is
read as the configuration (`Misplaced`): then the second run refuses that file (`renderAll_again`). Where the outputs are put
beside their registries this happens for the route `ruxy` (`not_repeatable_site`).
-/

namespace Prebake

namespace Command

variable {tree after : FileTree} {directory out : String} {config : Config} {pretty : Bool} {report : Report}

/-- The output of a registry lies where the configuration is looked for. -/
def Misplaced (tree : FileTree) (directory out : String) (found : Discovered) : Prop :=
  tree.locate (found.outputPath out) = tree.locate (Path.join directory configName)

instance (tree : FileTree) (directory out : String) : DecidablePred (Misplaced tree directory out) :=
  fun found => inferInstanceAs (Decidable (tree.locate (found.outputPath out) = _))

/-! ## What a run leaves -/

/-- What has been done when all registries below a directory are rendered. -/
structure HasRendered (config : Config) (directory out : String) (pretty : Bool) (tree after : FileTree) : Prop where
  configured : (findConfig FileTree.system none directory).on tree = (.ok config, tree)
  grows : tree.Grows (outputPlaces after out (registriesBelow tree directory)) after
  all : AllRendered config out pretty (registriesBelow tree directory) after
  eq_of_none : registriesBelow tree directory = [] → after = tree

/-- A run that reports success has rendered all registries below the directory. -/
theorem hasRendered_of_run (hnames : tree.WellNamed)
    (hrun : (run FileTree.system (renderAll directory out pretty)).run tree = (report, after))
    (hsuccess : report.success = true) :
    report = ⟨true, "", ""⟩ ∧ ∃ config, HasRendered config directory out pretty tree after := by
  obtain ⟨config, hconfig, hrender, hreport⟩ := perform_on_eq_ok_iff.1 (perform_of_run hrun hsuccess)
  obtain ⟨hgrows, hrendered⟩ := rendered_of_renderFound_on (Discovered.apart_ofPlaces hnames directory out) hrender
  refine ⟨hreport, config, hconfig, hgrows, hrendered, fun hnone => ?_⟩
  rw [hnone] at hrender
  exact renderFound_nil_on_eq_ok_iff.1 hrender

/-- The name of the file of a configuration leads down to it. -/
theorem leadsDown_configName : Path.LeadsDown configName [configName] :=
  ⟨by decide, by decide, by decide, by decide⟩

namespace HasRendered

/-- If anything was rendered, the directory was there. -/
theorem eq_or_locate (h : HasRendered config directory out pretty tree after) :
    after = tree ∨ ∃ base, tree.locate directory = .ok base := by
  by_cases hnone : registriesBelow tree directory = []
  · exact Or.inl (h.eq_of_none hnone)
  · obtain ⟨found, hfound⟩ := List.exists_mem_of_ne_nil _ hnone
    obtain ⟨way, hway, -⟩ := Discovered.mem_ofPlaces_iff.1 hfound
    obtain ⟨-, base, text, hbase, -⟩ := FileTree.mem_filesBelow_iff.1 hway
    exact Or.inr ⟨base, hbase⟩

/-- A run makes no registry appear or disappear. -/
theorem registriesBelow_eq (h : HasRendered config directory out pretty tree after) (hnames : tree.WellNamed) :
    registriesBelow after directory = registriesBelow tree directory := by
  rcases h.eq_or_locate with rfl | ⟨base, hbase⟩
  · rfl
  · refine Discovered.ofPlaces_of_grows h.grows ?_ hbase
    rintro place ⟨found, hfound, hplace⟩
    obtain ⟨before, name, _, _, hstands, -⟩ := Discovered.stands_of_mem hnames hfound
    exact hstands.isOutputPlace hplace

/-- A run changes no registry. -/
theorem read_eq (h : HasRendered config directory out pretty tree after) (hnames : tree.WellNamed) {found : Discovered}
    (hfound : found ∈ registriesBelow tree directory) : after.read found.path = tree.read found.path :=
  read_eq_of_grows hnames (fun _ hdone => hdone) h.grows hfound

/-- Unless an output is in its place, the file of the configuration is what it was. -/
theorem read_config_iff (h : HasRendered config directory out pretty tree after)
    (hapart : ∀ found ∈ registriesBelow tree directory, ¬Misplaced after directory out found) (text : String) :
    after.read (Path.join directory configName) = .ok text ↔ tree.read (Path.join directory configName) = .ok text := by
  have hplaces : ∀ place ∈ outputPlaces after out (registriesBelow tree directory),
      after.locate (Path.join directory configName) ≠ .ok place := by
    rintro place ⟨found, hfound, hlocate⟩ hplace
    exact hapart found hfound (hlocate.trans hplace.symm)
  rcases h.eq_or_locate with rfl | ⟨base, hbase⟩
  · rfl
  · constructor
    · intro hread
      obtain ⟨place, hlocate, htext⟩ := FileTree.read_eq_ok_iff.1 hread
      have hold := (h.grows.files place text fun hin => hplaces place hin hlocate).1 htext
      obtain ⟨base', hbase', rfl⟩ := FileTree.eq_of_locate_join leadsDown_configName hlocate
      cases (h.grows.walk (FileTree.walk_of_locate hbase)).symm.trans hbase'
      exact FileTree.read_eq_ok_iff.2
        ⟨_, FileTree.locate_join_of_find? leadsDown_configName (FileTree.walk_of_locate hbase) hold, hold⟩
    · exact h.grows.read hplaces

/-- Beside the registries only the output for the route `ruxy` has the name of the file of the configuration. -/
theorem misplaced_beside_iff (h : HasRendered config directory directory pretty tree after) (hnames : tree.WellNamed)
    {found : Discovered} (hfound : found ∈ registriesBelow tree directory) :
    Misplaced after directory directory found ↔ found.route = "ruxy" := by
  constructor
  · intro hmisplaced
    obtain ⟨_, _, above, _, -, -, hholds⟩ := h.all found hfound
    obtain ⟨before, name, _, _, hstands, -⟩ := Discovered.stands_of_mem hnames hfound
    obtain ⟨base, hbase, hplace⟩ := FileTree.eq_of_locate_join hstands.output hholds.locate
    obtain ⟨base', hbase', hplace'⟩ := FileTree.eq_of_locate_join leadsDown_configName (hmisplaced.symm.trans hholds.locate)
    cases hbase.symm.trans hbase'
    have hsame : before ++ [name ++ Discovered.outputSuffix] = [] ++ [configName] :=
      List.append_cancel_left (hplace.symm.trans hplace')
    obtain ⟨rfl, hname⟩ := List.append_singleton_inj.1 hsame
    have hconfig : configName = "ruxy" ++ Discovered.outputSuffix := by decide
    cases (String.append_left_inj Discovered.outputSuffix).1 (hname.trans hconfig)
    exact ((String.append_left_inj Discovered.ending).1 hstands.path_eq).symm
  · intro hroute
    rw [Misplaced, Discovered.outputPath, hroute]
    rfl

/-! ## The second run -/

/-- Where no output is misplaced, the second run succeeds and changes nothing. -/
theorem run_again_of_apart (h : HasRendered config directory out pretty tree after) (hnames : tree.WellNamed)
    (hapart : ∀ found ∈ registriesBelow tree directory, ¬Misplaced after directory out found) :
    (run FileTree.system (renderAll directory out pretty)).run after = (⟨true, "", ""⟩, after) := by
  have hread := h.read_config_iff hapart
  have hagain : (findConfig FileTree.system none directory).on after = (.ok config, after) := by
    obtain ⟨-, hconfig⟩ := findConfig_on_eq_ok_iff.1 h.configured
    refine findConfig_on_eq_ok_iff.2 ⟨rfl, hconfig.imp ?_ ?_⟩
    · rintro ⟨text, htext, hparse⟩
      exact ⟨text, (hread text).2 htext, hparse⟩
    · rintro ⟨⟨fault, hfault⟩, hdefault⟩
      refine ⟨?_, hdefault⟩
      cases hafter : after.read (Path.join directory configName) with
      | error fault => exact ⟨fault, rfl⟩
      | ok text => cases hfault.symm.trans ((hread text).1 hafter)
  refine run_eq_of_ok (perform_on_eq_ok_iff.2 ⟨config, hagain, ?_, rfl⟩)
  rw [h.registriesBelow_eq hnames]
  exact renderFound_on_of_rendered h.all

/-- An output is refused as a configuration. -/
theorem run_again_of_misplaced (h : HasRendered config directory out pretty tree after) {found : Discovered}
    (hfound : found ∈ registriesBelow tree directory) (hplace : Misplaced after directory out found) :
    (run FileTree.system (renderAll directory out pretty)).run after =
      (.ofFailure (.invalidConfig (.unknownField "route" Config.shape.names)), after) := by
  obtain ⟨source, text, above, name, -, htext, hholds⟩ := h.all found hfound
  obtain ⟨output, hroute, rfl⟩ := exists_output htext
  have hread : after.read (Path.join directory configName) = .ok (output.text pretty) :=
    FileTree.read_eq_ok_iff.2 ⟨_, hplace.symm.trans hholds.locate, hholds.found⟩
  refine run_eq_of_error ?_
  rw [perform_renderAll]
  refine bind_on_error ?_
  rw [findConfig_on_of_read hread, Config.parse_text hroute]

end HasRendered

/-- After a run that rendered all registries below a directory, the same registries with the same texts are found there, and
another run changes nothing. It succeeds too unless an output was put in the place of the file of the configuration, which it
then refuses. -/
theorem renderAll_again (hnames : tree.WellNamed)
    (hrun : (run FileTree.system (renderAll directory out pretty)).run tree = (report, after))
    (hsuccess : report.success = true) :
    registriesBelow after directory = registriesBelow tree directory ∧
      (∀ found ∈ registriesBelow tree directory, after.read found.path = tree.read found.path) ∧
      ((∀ found ∈ registriesBelow tree directory, ¬Misplaced after directory out found) →
        (∀ text, after.read (Path.join directory configName) = .ok text ↔
          tree.read (Path.join directory configName) = .ok text) ∧
        (run FileTree.system (renderAll directory out pretty)).run after = (report, after)) ∧
      ((∃ found ∈ registriesBelow tree directory, Misplaced after directory out found) →
        (run FileTree.system (renderAll directory out pretty)).run after =
          (.ofFailure (.invalidConfig (.unknownField "route" Config.shape.names)), after)) ∧
      (out = directory → ∀ found ∈ registriesBelow tree directory,
        (Misplaced after directory out found ↔ found.route = "ruxy")) := by
  obtain ⟨rfl, config, h⟩ := hasRendered_of_run hnames hrun hsuccess
  refine ⟨h.registriesBelow_eq hnames, fun found => h.read_eq hnames, fun hapart => ?_, ?_, ?_⟩
  · exact ⟨h.read_config_iff hapart, h.run_again_of_apart hnames hapart⟩
  · rintro ⟨found, hfound, hplace⟩
    exact h.run_again_of_misplaced hfound hplace
  · rintro rfl found hfound
    exact h.misplaced_beside_iff hnames hfound

/-- A registry for the route `ruxy`. -/
def site : FileTree where
  entries := [
    (["app"], .directory),
    (["app", "ruxy.registry.json"],
      .file "\x7b\"records\":[\x7b\"id\":\"a\",\"tag\":\"p\",\"isPrimaryBranch\":true\x7d]\x7d")]
  nodup := by decide
  rooted := by decide

/-- A run on `site` that puts the outputs into a directory. -/
def siteRun (out : String) : Report × FileTree := (run FileTree.system (renderAll "app" out false)).run site

/-- The site is rendered, be its outputs put beside the registries or into a directory of their own. -/
theorem success_siteRun (out : String) (hout : out = "app" ∨ out = "app/out") : (siteRun out).1.success = true := by
  rcases hout with rfl | rfl
  · decide +kernel
  · decide +kernel

/-- Into another directory the registry of `site` may be rendered again and again. -/
theorem site_again : site.WellNamed ∧ (siteRun "app/out").1.success = true ∧
    (run FileTree.system (renderAll "app" "app/out" false)).run (siteRun "app/out").2 = siteRun "app/out" := by
  have hnames : site.WellNamed := by decide
  have hsuccess := success_siteRun "app/out" (Or.inr rfl)
  have hrun : (run FileTree.system (renderAll "app" "app/out" false)).run site =
      ((siteRun "app/out").1, (siteRun "app/out").2) := rfl
  obtain ⟨-, -, hagain, -⟩ := renderAll_again hnames hrun hsuccess
  refine ⟨hnames, hsuccess, (hagain ?_).2⟩
  decide +kernel

/-- Rendered beside its registry, `site` is left with a file that is no configuration. -/
theorem not_repeatable_site : (siteRun "app").1.success = true ∧
    ((run FileTree.system (renderAll "app" "app" false)).run (siteRun "app").2).1.success = false := by
  have hsuccess := success_siteRun "app" (Or.inl rfl)
  have hrun : (run FileTree.system (renderAll "app" "app" false)).run site = ((siteRun "app").1, (siteRun "app").2) := rfl
  obtain ⟨-, _, hrendered⟩ := hasRendered_of_run (by decide) hrun hsuccess
  have hfound : ⟨"app/ruxy.registry.json", "ruxy"⟩ ∈ registriesBelow site "app" := by decide +kernel
  refine ⟨hsuccess, ?_⟩
  rw [hrendered.run_again_of_misplaced hfound rfl]
  rfl

end Command

end Prebake
