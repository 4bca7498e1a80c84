import Mathlib.Data.List.Nodup
import Prebake.Discovery
import Prebake.Proofs.FileTree.Paths

/-!
# Registries and their outputs

A registry that was found and its output lie under the same names but for the ends of the last ones
(`Discovered.Stands`). So no two registries have their outputs in one place, no output is put in the place of a registry, and
what is found below a directory stays the same however many outputs are written.
-/

namespace Prebake

namespace FileTree

variable {tree : FileTree} {directory : String} {base other way : Place}

/-! ## Files below a directory -/

/-- Below a place is whatever is reached from it by at least one name. -/
theorem below_iff : (base.isPrefixOf other && base != other) = true ↔ other.drop base.length ≠ [] ∧
    other = base ++ other.drop base.length := by
  rw [Bool.and_eq_true, List.isPrefixOf_iff_prefix, bne_iff_ne]
  constructor
  · rintro ⟨⟨rest, rfl⟩, hne⟩
    rw [List.drop_left]
    refine ⟨?_, rfl⟩
    rintro rfl
    exact hne (List.append_nil base).symm
  · rintro ⟨hne, hother⟩
    refine ⟨⟨_, hother.symm⟩, ?_⟩
    rintro rfl
    exact hne (List.drop_length)

/-- A file is found below a directory by the names that lead to it from there. -/
theorem mem_filesBelow_iff : way ∈ tree.filesBelow directory ↔
    way ≠ [] ∧ ∃ base text, tree.locate directory = .ok base ∧ tree.find? (base ++ way) = some (.file text) := by
  rw [filesBelow]
  cases hbase : tree.locate directory with
  | error fault => simp
  | ok base =>
    rw [List.mem_filterMap]
    constructor
    · rintro ⟨⟨other, entry⟩, hmem, hway⟩
      cases entry with
      | directory => cases hway
      | file text =>
        dsimp only at hway
        split_ifs at hway with hbelow
        cases hway
        obtain ⟨hne, hother⟩ := below_iff.1 hbelow
        rw [hother] at hmem
        exact ⟨hne, base, text, rfl, find?_of_mem hmem⟩
    · rintro ⟨hne, base', text, hsame, hfound⟩
      cases hsame
      refine ⟨(base ++ way, .file text), mem_of_find? (by simp [hne]) hfound, ?_⟩
      dsimp only
      rw [if_pos (below_iff.2 (by rw [List.drop_left]; exact ⟨hne, rfl⟩)), List.drop_left]

/-- No file is found twice. -/
theorem nodup_filesBelow (tree : FileTree) (directory : String) : (tree.filesBelow directory).Nodup := by
  rw [filesBelow]
  cases tree.locate directory with
  | error fault => exact List.nodup_nil
  | ok base =>
    refine List.pairwise_filterMap.2 ((List.pairwise_map.1 tree.nodup).imp ?_)
    rintro ⟨first, entry⟩ ⟨second, entry'⟩ hne way hfirst way' hsecond rfl
    cases entry with
    | directory => cases hfirst
    | file text =>
      cases entry' with
      | directory => cases hsecond
      | file text' =>
        dsimp only at hfirst hsecond
        split_ifs at hfirst hsecond with hbelow hbelow'
        refine hne ?_
        dsimp only
        rw [(below_iff.1 hbelow).2, (below_iff.1 hbelow').2, Option.some.inj hfirst, Option.some.inj hsecond]

end FileTree

namespace Discovered

variable {tree next : FileTree} {directory out : String} {way : Place} {found : Discovered} {name route : String}

/-! ## Routes -/

/-- How the names of registries end. -/
def ending : String := String.ofList suffix

/-- A file has a route if its path is a text with the ending of registries, and that text is not empty. -/
theorem route?_eq_some_iff :
    route? way = some route ↔ route ≠ "" ∧ Path.ofNames false way = route ++ ending := by
  rw [route?]
  constructor
  · intro h
    split_ifs at h with hroute
    cases h
    rw [Bool.and_eq_true, List.isSuffixOf_iff_suffix, Bool.not_eq_true', List.isEmpty_eq_false_iff] at hroute
    obtain ⟨⟨start, hstart⟩, hne⟩ := hroute
    have htake : (Path.ofNames false way).toList.take ((Path.ofNames false way).toList.length - suffix.length) = start := by
      rw [← hstart]
      simp
    rw [htake] at hne ⊢
    refine ⟨by simpa using hne, ?_⟩
    rw [← String.toList_inj, ← hstart, String.toList_append, String.toList_ofList]
    rfl
  · rintro ⟨hne, hpath⟩
    have hchars : (Path.ofNames false way).toList = route.toList ++ suffix := by
      rw [hpath, String.toList_append]
      rfl
    rw [hchars]
    simp [hne]

/-- Registries are found in the files that have a route, and each has its path from the directory. -/
theorem mem_ofPlaces_iff {places : List Place} : found ∈ ofPlaces directory places ↔
    ∃ way ∈ places, route? way = some found.route ∧ found.path = Path.join directory (Path.ofNames false way) := by
  rw [ofPlaces, List.mem_mergeSort, List.mem_filterMap]
  refine exists_congr fun way => and_congr_right fun _ => ?_
  rw [ofPlace?, Option.map_eq_some_iff]
  constructor
  · rintro ⟨route, hroute, rfl⟩
    exact ⟨hroute, rfl⟩
  · rintro ⟨hroute, hpath⟩
    exact ⟨found.route, hroute, hpath ▸ rfl⟩

/-- A registry that was found is known by its route. -/
theorem path_of_mem {places : List Place} (h : found ∈ ofPlaces directory places) :
    found.path = Path.join directory (found.route ++ ending) := by
  obtain ⟨way, -, hroute, hpath⟩ := mem_ofPlaces_iff.1 h
  rw [hpath, (route?_eq_some_iff.1 hroute).2]

/-- A registry that is found is known by its route. -/
theorem eq_of_route_eq {places places' : List Place} {other : Discovered} (h : found ∈ ofPlaces directory places)
    (hother : other ∈ ofPlaces directory places') (hroute : found.route = other.route) : found = other := by
  have hpath : found.path = other.path := by rw [path_of_mem h, path_of_mem hother, hroute]
  cases found
  cases other
  cases hroute
  cases hpath
  rfl

/-- Registries are found in the order of their routes. -/
theorem pairwise_route_le (directory : String) (places : List Place) :
    (ofPlaces directory places).Pairwise fun found other => found.route ≤ other.route := by
  refine (List.pairwise_mergeSort ?_ ?_ _).imp of_decide_eq_true
  · intro a b c hab hbc
    exact decide_eq_true (String.le_trans (of_decide_eq_true hab) (of_decide_eq_true hbc))
  · intro a b
    rw [Bool.or_eq_true, decide_eq_true_eq, decide_eq_true_eq]
    exact String.le_total _ _

/-- Registries are told by nothing but the files that hold them. -/
theorem ofPlaces_eq_of_mem_iff {places places' : List Place} (hnodup : places.Nodup) (hnodup' : places'.Nodup)
    (h : ∀ way, (route? way).isSome → (way ∈ places ↔ way ∈ places')) :
    ofPlaces directory places = ofPlaces directory places' := by
  have hfilter : ∀ places : List Place, places.filterMap (ofPlace? directory) =
      (places.filter fun way => (route? way).isSome).filterMap (ofPlace? directory) := by
    intro places
    rw [List.filterMap_filter]
    refine List.filterMap_congr fun way _ => ?_
    rw [ofPlace?]
    cases route? way <;> rfl
  have hperm : (ofPlaces directory places).Perm (ofPlaces directory places') := by
    refine (List.mergeSort_perm _ _).trans (List.Perm.trans ?_ (List.mergeSort_perm _ _).symm)
    rw [hfilter places, hfilter places']
    refine List.Perm.filterMap _ ((List.perm_ext_iff_of_nodup (hnodup.filter _) (hnodup'.filter _)).2 fun way => ?_)
    rw [List.mem_filter, List.mem_filter]
    exact and_congr_left (h way)
  refine hperm.eq_of_pairwise (fun a b ha hb hab hba => ?_) (pairwise_route_le directory places)
    (pairwise_route_le directory places')
  exact eq_of_route_eq ha hb (String.le_antisymm hab hba)

/-! ## Places -/

/-- Where a registry with a route and its output stand below their directories. -/
structure Stands (route : String) (before : Place) (name : String) : Prop where
  path_eq : Path.ofNames false (before ++ [name ++ ending]) = route ++ ending
  registry : Path.LeadsDown (route ++ ending) (before ++ [name ++ ending])
  output : Path.LeadsDown (route ++ outputSuffix) (before ++ [name ++ outputSuffix])

/-- Names of more than two characters lead downwards. -/
theorem ordinary_of_length (h : 2 < name.length) : name ≠ "." ∧ name ≠ ".." := by
  constructor
  · rintro rfl
    exact absurd h (by decide)
  · rintro rfl
    exact absurd h (by decide)

/-- A path with the ending of registries ends with a name that has it, and its route stands before that. -/
theorem exists_stands (hway : ∀ name ∈ way, Path.IsName name) (h : Path.ofNames false way = route ++ ending) :
    ∃ before name, way = before ++ [name ++ ending] ∧ Stands route before name := by
  obtain ⟨before, name, rfl, hnames⟩ := Path.names_append hway h (by decide) (by decide)
  refine ⟨before, name, rfl, h, ?_, ?_⟩
  · refine ⟨hnames ending (by decide) (by decide), by simp, ?_, fun other hother => (hway other hother).2.2⟩
    rw [Path.endsWithSlash_append _ (by decide)]
    rfl
  · refine ⟨hnames outputSuffix (by decide) (by decide), by simp, ?_, fun other hother => ?_⟩
    · rw [Path.endsWithSlash_append _ (by decide)]
      rfl
    · rcases List.mem_append.1 hother with hother | hother
      · exact (hway other (List.mem_append_left _ hother)).2.2
      · rw [List.mem_singleton.1 hother]
        refine ordinary_of_length ?_
        rw [String.length_append]
        exact Nat.lt_add_left _ (by decide)

/-- In a tree with the names that files may have, a registry that was found stands where its route tells. -/
theorem stands_of_mem (hnames : tree.WellNamed) (h : found ∈ ofPlaces directory (tree.filesBelow directory)) :
    ∃ before name base text, Stands found.route before name ∧ tree.walk [] (Path.names directory) = .ok base ∧
      tree.find? (base ++ (before ++ [name ++ ending])) = some (.file text) := by
  obtain ⟨way, hway, hroute, -⟩ := mem_ofPlaces_iff.1 h
  obtain ⟨-, base, text, hbase, hfound⟩ := FileTree.mem_filesBelow_iff.1 hway
  have hproper : ∀ name ∈ way, Path.IsName name := fun name hname => hnames.of_find? hfound (List.mem_append_right base hname)
  obtain ⟨before, name, rfl, hstands⟩ := exists_stands hproper (route?_eq_some_iff.1 hroute).2
  exact ⟨before, name, base, text, hstands, FileTree.walk_of_locate hbase, hfound⟩

/-- No registry is found twice. -/
theorem nodup_ofPlaces (hnames : tree.WellNamed) (directory : String) :
    (ofPlaces directory (tree.filesBelow directory)).Nodup := by
  rw [ofPlaces, (List.mergeSort_perm _ _).nodup_iff]
  refine List.pairwise_filterMap.2 ((FileTree.nodup_filesBelow tree directory).imp_of_mem ?_)
  rintro way way' hway hway' hne a ha b hb rfl
  have hproper : ∀ way ∈ tree.filesBelow directory, ∀ name ∈ way, Path.IsName name := by
    intro way hway name hname
    obtain ⟨-, base, text, -, hfound⟩ := FileTree.mem_filesBelow_iff.1 hway
    exact hnames.of_find? hfound (List.mem_append_right base hname)
  obtain ⟨route, hroute, rfl⟩ := Option.map_eq_some_iff.1 ha
  obtain ⟨route', hroute', hsame⟩ := Option.map_eq_some_iff.1 hb
  obtain ⟨-, rfl⟩ := Discovered.mk.inj hsame
  have hpath := (route?_eq_some_iff.1 hroute).2.trans (route?_eq_some_iff.1 hroute').2.symm
  rw [← Path.names_ofNames (hproper way hway), hpath, Path.names_ofNames (hproper way' hway')] at hne
  exact hne rfl

/-! ## Outputs -/

variable {places : Set Place} {place before before' : Place} {other : Discovered} {name' : String}

/-- A place whose name ends as those of outputs. -/
def IsOutputPlace (place : Place) : Prop := ∃ above name, place = above ++ [name ++ outputSuffix]

/-- The names of registries are no names of outputs. -/
theorem append_ending_ne (name name' : String) : name ++ ending ≠ name' ++ outputSuffix := by
  intro h
  have hchars := congrArg String.toList h
  rw [String.toList_append, String.toList_append,
    show ending.toList = ".registr".toList ++ "y.json".toList from rfl,
    show outputSuffix.toList = ".prerende".toList ++ "r.json".toList from rfl,
    ← List.append_assoc, ← List.append_assoc] at hchars
  exact absurd (List.append_inj' hchars rfl).2 (by decide)

/-- No output is put where a registry can be. -/
theorem not_isOutputPlace_registry (above : Place) (name : String) : ¬IsOutputPlace (above ++ [name ++ ending]) := by
  rintro ⟨above', name', h⟩
  exact append_ending_ne name name' (List.append_singleton_inj.1 h).2

namespace Stands

/-- The path of an output leads to where outputs are put. -/
theorem isOutputPlace (h : Stands found.route before name) (hplace : tree.locate (found.outputPath out) = .ok place) :
    IsOutputPlace place := by
  obtain ⟨base, -, rfl⟩ := FileTree.eq_of_locate_join h.output hplace
  exact ⟨base ++ before, name, (List.append_assoc _ _ _).symm⟩

/-- Two outputs that lie in one way below their directories belong to one route. -/
theorem route_eq_of_way_eq (h : Stands found.route before name) (hother : Stands other.route before' name')
    (hway : before ++ [name ++ outputSuffix] = before' ++ [name' ++ outputSuffix]) : found.route = other.route := by
  obtain ⟨rfl, hname⟩ := List.append_singleton_inj.1 hway
  rw [String.append_left_inj] at hname
  subst hname
  exact (String.append_left_inj ending).1 (h.path_eq.symm.trans hother.path_eq)

/-- Two outputs in one place belong to one route. -/
theorem route_eq (h : Stands found.route before name) (hother : Stands other.route before' name')
    (hplace : tree.locate (found.outputPath out) = .ok place) (hplace' : tree.locate (other.outputPath out) = .ok place) :
    found.route = other.route := by
  obtain ⟨base, hbase, hfound⟩ := FileTree.eq_of_locate_join h.output hplace
  obtain ⟨base', hbase', hother'⟩ := FileTree.eq_of_locate_join hother.output hplace'
  cases hbase.symm.trans hbase'
  exact h.route_eq_of_way_eq hother (List.append_cancel_left (hfound.symm.trans hother'))

end Stands

/-- No output is put in the place of another one or of a registry. -/
structure Apart (out : String) (founds : List Discovered) : Prop where
  outputs : founds.Pairwise fun found other => ∀ (tree : FileTree) place,
    tree.locate (found.outputPath out) = .ok place → tree.locate (other.outputPath out) ≠ .ok place
  registries : ∀ found ∈ founds, ∀ other ∈ founds, ∀ (tree : FileTree) place,
    tree.locate found.path = .ok place → tree.locate (other.outputPath out) ≠ .ok place

/-- Registries that are found below a directory have their outputs apart from each other and from the registries. -/
theorem apart_ofPlaces (hnames : tree.WellNamed) (directory out : String) :
    Apart out (ofPlaces directory (tree.filesBelow directory)) where
  outputs := by
    refine (nodup_ofPlaces hnames directory).imp_of_mem fun hfound hother hne next place hplace hplace' => hne ?_
    obtain ⟨before, name, _, _, hstands, -⟩ := stands_of_mem hnames hfound
    obtain ⟨before', name', _, _, hstands', -⟩ := stands_of_mem hnames hother
    exact eq_of_route_eq hfound hother (hstands.route_eq hstands' hplace hplace')
  registries := by
    intro found hfound other hother next place hplace hplace'
    obtain ⟨before, name, _, _, hstands, -⟩ := stands_of_mem hnames hfound
    obtain ⟨before', name', _, _, hstands', -⟩ := stands_of_mem hnames hother
    rw [path_of_mem hfound] at hplace
    obtain ⟨base, -, rfl⟩ := FileTree.eq_of_locate_join hstands.registry hplace
    rw [← List.append_assoc] at hplace'
    exact not_isOutputPlace_registry _ _ (hstands'.isOutputPlace hplace')

/-- The file of an output is not taken for a registry. -/
theorem not_isOutputPlace_append {base : Place} (hway : way ≠ []) (hroute : (route? way).isSome) :
    ¬IsOutputPlace (base ++ way) := by
  rintro ⟨above, name, hplace⟩
  obtain ⟨route, hroute⟩ := Option.isSome_iff_exists.1 hroute
  obtain ⟨before, last, rfl⟩ := List.eq_nil_or_concat' way |>.resolve_left hway
  rw [← List.append_assoc] at hplace
  obtain ⟨-, rfl⟩ := List.append_singleton_inj.1 hplace
  obtain ⟨start, hstart⟩ := Path.isSuffix_ofNames before (name ++ outputSuffix)
  rw [(route?_eq_some_iff.1 hroute).2] at hstart
  refine append_ending_ne route (String.ofList start ++ name) (String.toList_inj.1 ?_)
  rw [← hstart, String.append_assoc, String.toList_append (s := String.ofList start), String.toList_ofList]

/-- However many outputs are written, what is found below a directory stays the same. -/
theorem ofPlaces_of_grows (hgrows : tree.Grows places next) (hplaces : ∀ place ∈ places, IsOutputPlace place)
    {base : Place} (hbase : tree.locate directory = .ok base) :
    ofPlaces directory (next.filesBelow directory) = ofPlaces directory (tree.filesBelow directory) := by
  refine ofPlaces_eq_of_mem_iff (FileTree.nodup_filesBelow next directory) (FileTree.nodup_filesBelow tree directory) ?_
  intro way hroute
  rw [FileTree.mem_filesBelow_iff, FileTree.mem_filesBelow_iff]
  refine and_congr_right fun hway => ?_
  have hplace : base ++ way ∉ places := fun hin => not_isOutputPlace_append hway hroute (hplaces _ hin)
  constructor
  · rintro ⟨base', text, hbase', hfound⟩
    cases (hgrows.locate hbase).symm.trans hbase'
    exact ⟨base, text, hbase, (hgrows.files _ _ hplace).1 hfound⟩
  · rintro ⟨base', text, hbase', hfound⟩
    cases hbase.symm.trans hbase'
    exact ⟨base, text, hgrows.locate hbase, (hgrows.files _ _ hplace).2 hfound⟩

end Discovered

end Prebake
