import Prebake.Proofs.Discovery

/-!
# Routes of registries

A registry has its route from the names that lead to it below a directory, and is found by the end of the last one. A file that
has nothing but this end for a name is passed over right in the directory, where its route would be empty; further below, what
leads to it makes a route all the same. `discover_iff` says which files are found, under which routes and in which order.
-/

namespace Prebake

namespace Path

variable {directory below : String} {way : List String}

/-- What is added to the last name is added to the path. -/
theorem ofNames_concat_append (before : List String) (name ending : String) :
    ofNames false (before ++ [name ++ ending]) = ofNames false (before ++ [name]) ++ ending := by
  by_cases hnil : before = []
  · subst hnil
    simp [ofNames]
  · simp [ofNames, String.intercalate_append_of_ne_nil hnil, String.append_assoc]

/-- The path of some names is empty if there is only one and that is empty. -/
theorem ofNames_concat_eq_empty_iff {before : List String} {name : String} :
    ofNames false (before ++ [name]) = "" ↔ before = [] ∧ name = "" := by
  by_cases hnil : before = []
  · subst hnil
    simp [ofNames]
  · simp [ofNames, String.intercalate_append_of_ne_nil hnil, hnil]

/-- A path below a directory is absolute if that of the directory is. -/
theorem isAbsolute_join (h : directory ≠ "") (below : String) : isAbsolute (join directory below) = isAbsolute directory := by
  have hne : directory.toList ≠ [] := mt String.toList_eq_nil_iff.1 h
  obtain ⟨first, rest, hdirectory⟩ := List.exists_cons_of_ne_nil hne
  rw [isAbsolute, isAbsolute, join]
  split_ifs <;> simp [hdirectory]

/-- A path below a directory has the components of the directory before its own. -/
theorem components_join (h : LeadsDown below way) : components (join directory below) = components directory ++ way := by
  have hnames : names (join directory below) = names directory ++ way := by rw [names_join, h.names_eq]
  have hordinary : ∀ names : List String, (∀ name ∈ names, name ∈ way) → names.filter (· != ".") = names := by
    intro names hsubset
    rw [List.filter_eq_self]
    intro name hname
    exact bne_iff_ne.2 (h.ordinary name (hsubset name hname)).1
  rw [components, components, hnames]
  cases hdirectory : names directory with
  | nil =>
    obtain ⟨first, rest, rfl⟩ := List.exists_cons_of_ne_nil h.ne_nil
    have hfirst := (h.ordinary first List.mem_cons_self).1
    simp [hfirst, hordinary rest fun name hname => List.mem_cons_of_mem _ hname]
  | cons first rest =>
    have hne : directory ≠ "" := by
      rintro rfl
      cases hdirectory
    simp [isAbsolute_join hne below, hordinary way fun name hname => hname]

end Path

namespace Discovered

variable {tree : FileTree} {directory : String} {base before : Place} {stem route : String} {found : Discovered}

/-- A file below a directory whose name ends as those of registries do, with the route that leads to it. The route is not
empty. -/
structure LiesAt (tree : FileTree) (base before : Place) (stem route : String) : Prop where
  held : ∃ text, tree.find? (base ++ (before ++ [stem ++ ending])) = some (.file text)
  route_eq : route = Path.ofNames false (before ++ [stem])
  nonempty : before ≠ [] ∨ stem ≠ ""

/-- A route is missing only where nothing leads to the file and its name is nothing but the ending. -/
theorem ofNames_ne_empty_iff : Path.ofNames false (before ++ [stem]) ≠ "" ↔ before ≠ [] ∨ stem ≠ "" := by
  rw [ne_eq, Path.ofNames_concat_eq_empty_iff, not_and_or]

/-- The files that hold registries are those that lie at their routes. -/
theorem mem_ofPlaces_iff_liesAt (hnames : tree.WellNamed) (hbase : tree.locate directory = .ok base) :
    found ∈ ofPlaces directory (tree.filesBelow directory) ↔
      (∃ before stem, LiesAt tree base before stem found.route) ∧ found.path = Path.join directory (found.route ++ ending) := by
  rw [mem_ofPlaces_iff]
  constructor
  · rintro ⟨way, hway, hroute, hpath⟩
    obtain ⟨hne, hof⟩ := route?_eq_some_iff.1 hroute
    obtain ⟨-, base', text, hbase', hfound⟩ := FileTree.mem_filesBelow_iff.1 hway
    cases hbase.symm.trans hbase'
    obtain ⟨before, stem, rfl, -⟩ := Path.names_append
      (fun name hname => hnames.of_find? hfound (List.mem_append_right base hname)) hof (by decide) (by decide)
    have hsame : found.route = Path.ofNames false (before ++ [stem]) :=
      (String.append_left_inj ending).1 (hof.symm.trans (Path.ofNames_concat_append before stem ending))
    exact ⟨⟨before, stem, ⟨text, hfound⟩, hsame, ofNames_ne_empty_iff.1 (hsame ▸ hne)⟩, hof ▸ hpath⟩
  · rintro ⟨⟨before, stem, ⟨text, hfound⟩, hroute, hnonempty⟩, hpath⟩
    have hof := Path.ofNames_concat_append before stem ending
    rw [← hroute] at hof
    refine ⟨before ++ [stem ++ ending], FileTree.mem_filesBelow_iff.2 ⟨by simp, base, text, hbase, hfound⟩,
      route?_eq_some_iff.2 ⟨?_, hof⟩, hof ▸ hpath⟩
    rw [hroute]
    exact ofNames_ne_empty_iff.2 hnonempty

/-- The path of a registry, put together from the directory and the route, leads to the file. -/
theorem LiesAt.locate (hnames : tree.WellNamed) (hbase : tree.locate directory = .ok base)
    (h : LiesAt tree base before stem route) :
    tree.locate (Path.join directory (route ++ ending)) = .ok (base ++ (before ++ [stem ++ ending])) := by
  obtain ⟨text, hfound⟩ := h.held
  have hproper : ∀ name ∈ before ++ [stem ++ ending], Path.IsName name := fun name hname =>
    hnames.of_find? hfound (List.mem_append_right base hname)
  have hof := Path.ofNames_concat_append before stem ending
  rw [← h.route_eq] at hof
  obtain ⟨before', name, hway, hstands⟩ := exists_stands hproper hof
  have hregistry := hstands.registry
  rw [← hway] at hregistry
  exact FileTree.locate_join_of_find? hregistry (FileTree.walk_of_locate hbase) hfound

/-- No route is found twice. -/
theorem pairwise_route_lt (hnames : tree.WellNamed) (directory : String) :
    (ofPlaces directory (tree.filesBelow directory)).Pairwise fun found other => found.route < other.route := by
  refine ((pairwise_route_le directory _).and (nodup_ofPlaces hnames directory)).imp_of_mem ?_
  rintro found other hfound hother ⟨hle, hne⟩
  exact String.not_le.1 fun hge => hne (eq_of_route_eq hfound hother (String.le_antisymm hle hge))

/-- Wherever outputs are put, those of two registries have different paths. -/
theorem pairwise_components_outputPath (hnames : tree.WellNamed) (directory out : String) :
    (ofPlaces directory (tree.filesBelow directory)).Pairwise fun found other =>
      Path.components (found.outputPath out) ≠ Path.components (other.outputPath out) := by
  refine (nodup_ofPlaces hnames directory).imp_of_mem fun hfound hother hne hsame => hne ?_
  obtain ⟨before, name, _, _, hstands, -⟩ := stands_of_mem hnames hfound
  obtain ⟨before', name', _, _, hstands', -⟩ := stands_of_mem hnames hother
  rw [outputPath, outputPath, Path.components_join hstands.output, Path.components_join hstands'.output] at hsame
  exact eq_of_route_eq hfound hother (hstands.route_eq_of_way_eq hstands' (List.append_cancel_left hsame))

/-- Below a directory those files are found, each once and in the order of the routes, whose names end as those of registries do
and whose routes are not empty: a name may have nothing before its end, unless the file lies right in the directory. A route
leads from the directory to its file, and no two outputs have the same path. -/
theorem discover_iff (hnames : tree.WellNamed) (hbase : tree.locate directory = .ok base) :
    ∃ founds, (FileTree.system.discover directory).run tree = (founds, tree) ∧
      (∀ found, found ∈ founds ↔ (∃ before stem, LiesAt tree base before stem found.route) ∧
        found.path = Path.join directory (found.route ++ ending)) ∧
      (∀ before stem route, LiesAt tree base before stem route →
        tree.locate (Path.join directory (route ++ ending)) = .ok (base ++ (before ++ [stem ++ ending]))) ∧
      (founds.Pairwise fun found other => found.route < other.route) ∧
      ∀ out, founds.Pairwise fun found other =>
        Path.components (found.outputPath out) ≠ Path.components (other.outputPath out) :=
  ⟨_, rfl, fun _ => mem_ofPlaces_iff_liesAt hnames hbase, fun _ _ _ h => h.locate hnames hbase,
    pairwise_route_lt hnames directory, pairwise_components_outputPath hnames directory⟩

/-- Registries for two routes, a file without a route and one that holds no registry. -/
def blog : FileTree where
  entries := [
    (["app"], .directory),
    (["app", "blog"], .directory),
    (["app", "blog", "post.registry.json"], .file "\x7b\x7d"),
    (["app", "blog", "post.json"], .file "\x7b\x7d"),
    (["app", "blog.registry.json"], .file "\x7b\x7d"),
    (["app", ".registry.json"], .file "\x7b\x7d")]
  nodup := by decide
  rooted := by decide

/-- Of these files the two with routes are found. -/
theorem discover_blog : blog.WellNamed ∧ blog.locate "app" = .ok ["app"] ∧
    ∃ founds, (FileTree.system.discover "app").run blog = (founds, blog) ∧
      ⟨"app/blog/post.registry.json", "blog/post"⟩ ∈ founds ∧ ⟨"app/blog.registry.json", "blog"⟩ ∈ founds ∧
      (∀ found ∈ founds, found.route ≠ "") ∧ (founds.Pairwise fun found other => found.route < other.route) ∧
      blog.locate "app/blog/post.registry.json" = .ok ["app", "blog", "post.registry.json"] := by
  have hnames : blog.WellNamed := by decide
  have hbase : blog.locate "app" = .ok ["app"] := by rfl
  obtain ⟨founds, hrun, hfounds, hlocate, hroutes, -⟩ := discover_iff hnames hbase
  have hpost : LiesAt blog ["app"] ["blog"] "post" "blog/post" := ⟨⟨_, rfl⟩, by decide, Or.inl (by decide)⟩
  have hblog : LiesAt blog ["app"] [] "blog" "blog" := ⟨⟨_, rfl⟩, by decide, Or.inr (by decide)⟩
  refine ⟨hnames, hbase, founds, hrun, (hfounds _).2 ⟨⟨_, _, hpost⟩, by decide⟩, (hfounds _).2 ⟨⟨_, _, hblog⟩, by decide⟩,
    fun found hfound hempty => ?_, hroutes, hlocate _ _ _ hpost⟩
  obtain ⟨⟨before, stem, hlies⟩, -⟩ := (hfounds found).1 hfound
  exact ofNames_ne_empty_iff.2 hlies.nonempty (hlies.route_eq ▸ hempty)

/-- A file that has nothing but the end of a name, not right in its directory. -/
def attic : FileTree where
  entries := [
    (["app"], .directory),
    (["app", "blog"], .directory),
    (["app", "blog", ".registry.json"], .file "\x7b\x7d")]
  nodup := by decide
  rooted := by decide

/-- The file is found, though no file below the directory has a name with anything before the end of registries. -/
theorem nameless_found : attic.WellNamed ∧ attic.locate "app" = .ok ["app"] ∧
    (∀ before stem text, attic.find? (["app"] ++ (before ++ [stem ++ ending])) = some (.file text) → stem = "") ∧
    (FileTree.system.discover "app").run attic = ([⟨"app/blog/.registry.json", "blog/"⟩], attic) := by
  have hfounds : ofPlaces "app" (attic.filesBelow "app") = [⟨"app/blog/.registry.json", "blog/"⟩] :=
    List.mergeSort_of_pairwise (List.pairwise_singleton _ _)
  refine ⟨by decide, by rfl, fun before stem text hfound => ?_, congrArg (·, attic) hfounds⟩
  have hheld := FileTree.mem_of_find? (by simp) hfound
  have hplace : before ++ [stem ++ ending] = ["blog"] ++ ["" ++ ending] := by
    have hway : before ++ [stem ++ ending] = ["blog", ".registry.json"] ∧ text = "\x7b\x7d" := by
      simpa [attic] using hheld
    exact hway.1
  exact (String.append_left_inj ending).1 (List.append_singleton_inj.1 hplace).2

end Discovered

end Prebake
