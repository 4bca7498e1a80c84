import Mathlib.Logic.Function.Basic
import Prebake.Proofs.FileTree.Growth

/-!
# Writing files

Writing a text puts it into the file that a path names, makes the directories on the way there and leaves everything else as
it is. Afterwards the file holds the text (`FileTree.Holds`): for as long as nothing else is put in its place, the text is
read there, and to write it once more changes nothing.
-/

namespace Prebake

namespace FileTree

variable {tree next : FileTree} {place above : Place} {entry : FileEntry} {path text name : String} {names : List String}

/-- A file tree is what it holds. -/
theorem eq_of_entries (h : tree.entries = next.entries) : tree = next := by
  cases tree
  cases next
  cases h
  rfl

/-! ## One entry -/

/-- A new entry stands at its place, where nothing stood, and everywhere else stands what stood there. -/
theorem create_eq_ok (h : tree.create place entry = .ok next) :
    tree.find? place = none ∧ next.find? = Function.update tree.find? place (some entry) := by
  rw [create] at h
  cases hparent : tree.find? place.dropLast with
  | none => simp [hparent] at h
  | some parent =>
    cases parent with
    | file text => simp [hparent] at h
    | directory =>
      simp only [hparent] at h
      split_ifs at h with hnew hbelow
      cases h
      refine ⟨?_, funext fun other => ?_⟩
      · rw [find?_of_ne_nil hbelow.1]
        refine List.lookup_eq_none_iff.2 fun held hheld => ?_
        rw [bne_iff_ne]
        rintro rfl
        exact hnew (List.mem_map_of_mem hheld)
      · by_cases hother : other = place
        · subst hother
          rw [find?_of_ne_nil hbelow.1, add, List.lookup_cons_self, Function.update_self]
        · rw [Function.update_of_ne hother]
          by_cases hroot : other = []
          · rw [hroot, find?_nil, find?_nil]
          · rw [find?_of_ne_nil hroot, find?_of_ne_nil hroot, add, List.lookup_cons, beq_eq_false_iff_ne.2 hother]

/-- Nothing new is made where something stands. -/
theorem create_eq_error (hplace : place ≠ []) (hparent : tree.find? place.dropLast = some .directory)
    (hfound : tree.find? place = some entry) (new : FileEntry) : tree.create place new = .error .alreadyExists := by
  rw [create]
  simp only [hparent]
  exact dif_neg (not_not.2 (List.mem_map_of_mem (mem_of_find? hplace hfound)))

/-- Entries keep their places when a file gets another text. -/
theorem lookup_map_overwrite (entries : List (Place × FileEntry)) (other : Place) :
    (entries.map (overwrite place text)).lookup other =
      (entries.lookup other).map fun held => (overwrite place text (other, held)).2 := by
  induction entries with
  | nil => rfl
  | cons held entries ih =>
    obtain ⟨first, held⟩ := held
    have hheld : overwrite place text (first, held) = (first, (overwrite place text (first, held)).2) :=
      Prod.ext (overwrite_fst place text (first, held)) rfl
    rw [List.map_cons, hheld, List.lookup_cons, List.lookup_cons, ih]
    by_cases hother : other = first
    · subst hother
      simp
    · simp [beq_eq_false_iff_ne.2 hother]

/-- Afterwards the file stands at its place, where no directory may stand, and all else is as it was. -/
theorem put_eq_ok (h : tree.put place text = .ok next) :
    tree.find? place ≠ some .directory ∧ next.find? = Function.update tree.find? place (some (.file text)) := by
  rw [put] at h
  cases hfound : tree.find? place with
  | none =>
    simp only [hfound] at h
    exact ⟨by simp, (create_eq_ok h).2⟩
  | some found =>
    cases found with
    | directory => simp [hfound] at h
    | file old =>
      simp only [hfound] at h
      cases h
      refine ⟨by simp, funext fun other => ?_⟩
      by_cases hroot : other = []
      · have hother : other ≠ place := by
          rintro rfl
          rw [hroot, find?_nil] at hfound
          cases hfound
        rw [Function.update_of_ne hother, hroot, find?_nil, find?_nil]
      · rw [find?_of_ne_nil hroot, replace, lookup_map_overwrite, ← find?_of_ne_nil hroot]
        by_cases hother : other = place
        · subst hother
          rw [hfound, Function.update_self]
          simp [overwrite]
        · rw [Function.update_of_ne hother]
          cases hheld : tree.find? other with
          | none => rfl
          | some held => cases held <;> simp [overwrite, hother]

/-- A file may be given the text that it has. -/
theorem put_eq_self (h : tree.find? place = some (.file text)) : tree.put place text = .ok tree := by
  rw [put]
  simp only [h]
  refine congrArg Except.ok (eq_of_entries ?_)
  have hsame : ∀ held ∈ tree.entries, overwrite place text held = id held := by
    rintro ⟨other, held⟩ hheld
    cases held with
    | directory => rfl
    | file old =>
      by_cases hother : other = place
      · subst hother
        cases h.symm.trans (find?_of_mem hheld)
        simp [overwrite]
      · simp [overwrite, hother]
  exact (List.map_congr_left hsame).trans (List.map_id _)

/-! ## Growth -/

/-- With a new directory a tree has grown. -/
theorem grows_of_create (h : tree.create place .directory = .ok next) : Grows ∅ tree next := by
  obtain ⟨hnew, hnext⟩ := create_eq_ok h
  constructor
  · intro other hother
    rw [hnext]
    by_cases hplace : other = place
    · rw [hplace, Function.update_self]
    · rwa [Function.update_of_ne hplace]
  · intro other text _
    rw [hnext]
    by_cases hplace : other = place
    · simp [hplace, hnew]
    · rw [Function.update_of_ne hplace]

/-- With a text in a file a tree has grown, apart from this file. -/
theorem grows_of_put (h : tree.put place text = .ok next) : Grows {place} tree next := by
  obtain ⟨hold, hnext⟩ := put_eq_ok h
  constructor
  · intro other hother
    rw [hnext, Function.update_of_ne]
    · exact hother
    · rintro rfl
      exact hold hother
  · intro other text hother
    rw [hnext, Function.update_of_ne hother]

/-! ## Directories -/

/-- Names lead to a directory if there is one at their place. -/
theorem leadsToDirectory_iff :
    tree.leadsToDirectory names ↔ ∃ place, tree.walk [] names = .ok place ∧ tree.find? place = some .directory := by
  rw [leadsToDirectory]
  cases tree.walk [] names with
  | error fault => simp
  | ok place => simp [isDirectory]

/-- Names that lead to a directory go on doing so. -/
theorem Grows.leadsToDirectory {places : Set Place} (h : Grows places tree next) (hnames : tree.leadsToDirectory names) :
    next.leadsToDirectory names := by
  obtain ⟨place, hwalk, hplace⟩ := leadsToDirectory_iff.1 hnames
  exact leadsToDirectory_iff.2 ⟨place, h.walk hwalk, h.directories place hplace⟩

/-- A directory that was made is there, and the tree has grown. -/
theorem makeDirectory_eq_ok (h : tree.makeDirectory names = .ok next) : Grows ∅ tree next ∧ next.leadsToDirectory names := by
  obtain ⟨above, hwalk, h⟩ := bind_eq_ok_iff.1 h
  split at h
  · cases h
  · cases h
  · cases h
  · rename_i name hdot hdots hlast
    obtain ⟨before, rfl⟩ := List.getLast?_eq_some_iff.1 hlast
    rw [List.dropLast_concat] at hwalk
    obtain ⟨middle, hbefore, hmiddle⟩ := walk_append_eq_ok_iff.1 hwalk
    obtain ⟨rfl, hdirectory⟩ := walk_dot_eq_ok_iff.1 hmiddle
    have hgrows := grows_of_create h
    refine ⟨hgrows, leadsToDirectory_iff.2 ⟨middle ++ [name], walk_append_eq_ok_iff.2 ⟨middle, hgrows.walk hbefore, ?_⟩, ?_⟩⟩
    · exact walk_cons_eq_ok_iff.2 ⟨hgrows.directories middle hdirectory, Or.inr (Or.inr ⟨⟨hdot, hdots⟩, rfl⟩)⟩
    · rw [(create_eq_ok h).2, Function.update_self]

/-- A directory is not made twice. -/
theorem makeDirectory_of_leads (h : tree.leadsToDirectory names) : tree.makeDirectory names = .error .alreadyExists := by
  obtain ⟨place, hwalk, hplace⟩ := leadsToDirectory_iff.1 h
  induction names using List.reverseRecOn with
  | nil => rfl
  | append_singleton before name _ =>
    obtain ⟨above, hbefore, hlast⟩ := walk_append_eq_ok_iff.1 hwalk
    obtain ⟨habove, hname⟩ := walk_cons_eq_ok_iff.1 hlast
    have hfirst : tree.walk [] ((before ++ [name]).dropLast ++ ["."]) = .ok above := by
      rw [List.dropLast_concat]
      exact walk_append_eq_ok_iff.2 ⟨above, hbefore, walk_dot_eq_ok_iff.2 ⟨rfl, habove⟩⟩
    rw [makeDirectory, hfirst]
    rw [List.getLast?_concat]
    dsimp only [Except.bind, bind]
    split
    · rfl
    · rfl
    · rfl
    · rename_i last hdot hdots hsome
      cases hsome
      rcases hname with ⟨hname, -⟩ | ⟨hname, -⟩ | ⟨-, hstop⟩
      · exact absurd hname hdot
      · exact absurd hname hdots
      · cases hstop
        exact create_eq_error (by simp) (by rwa [List.dropLast_concat]) hplace .directory

/-- Directories that are there need not be made. -/
theorem makeDirectories_of_leads (h : tree.leadsToDirectory names) : tree.makeDirectories names = .ok tree := by
  rw [makeDirectories, makeDirectory_of_leads h]
  by_cases hnames : names = []
  · rw [if_pos hnames]
  · rw [if_neg hnames]
    exact if_pos h

/-- A directory that cannot be made must be there already. -/
theorem there_eq_ok {fault : FileFault}
    (h : (if tree.leadsToDirectory names then .ok tree else .error fault) = Except.ok next) :
    Grows ∅ tree next ∧ next.leadsToDirectory names := by
  split_ifs at h with hleads
  cases h
  exact ⟨Grows.refl ∅ tree, hleads⟩

/-- A directory that was made with those above it is there, and the tree has grown. -/
theorem makeDirectories_eq_ok (h : tree.makeDirectories names = .ok next) :
    Grows ∅ tree next ∧ next.leadsToDirectory names := by
  induction names using List.reverseRecOn generalizing next with
  | nil =>
    rw [makeDirectories, if_pos rfl] at h
    cases h
    exact ⟨Grows.refl ∅ tree, rfl⟩
  | append_singleton before name ih =>
    rw [makeDirectories, if_neg (by simp), List.dropLast_concat] at h
    split at h
    · rename_i made hmade
      cases h
      exact makeDirectory_eq_ok hmade
    · obtain ⟨above, habove, h⟩ := bind_eq_ok_iff.1 h
      obtain ⟨hgrows, -⟩ := ih habove
      have hlast : Grows ∅ above next ∧ next.leadsToDirectory (before ++ [name]) := by
        split at h
        · rename_i made hmade
          cases h
          exact makeDirectory_eq_ok hmade
        · exact there_eq_ok h
      exact ⟨hgrows.trans hlast.1, hlast.2⟩
    · exact there_eq_ok h

/-! ## Texts -/

/-- A text stands in the file that a path names, in a directory and under a name. -/
structure Holds (tree : FileTree) (path text : String) (above : Place) (name : String) : Prop where
  directories : tree.leadsToDirectory (Path.components path).dropLast
  last : (Path.names path).getLast? = some name
  ordinary : (Path.endsWithSlash path || name = "." || name = "..") = false
  walk : tree.walk [] ((Path.names path).dropLast ++ ["."]) = .ok above
  found : tree.find? (above ++ [name]) = some (.file text)

namespace Holds

/-- A file holds its text for as long as nothing else may be put in its place. -/
theorem mono {places : Set Place} (h : Holds tree path text above name) (hgrows : Grows places tree next)
    (hplace : above ++ [name] ∉ places) : Holds next path text above name where
  directories := hgrows.leadsToDirectory h.directories
  last := h.last
  ordinary := h.ordinary
  walk := hgrows.walk h.walk
  found := (hgrows.files _ _ hplace).2 h.found

/-- A text that a file holds may be written there again. -/
theorem write_eq_self (h : Holds tree path text above name) : tree.write path text = .ok tree := by
  rw [write, makeDirectories_of_leads h.directories]
  dsimp only [bind, Except.bind]
  rw [h.last, h.walk]
  dsimp only
  rw [h.ordinary]
  exact put_eq_self h.found

theorem locate (h : Holds tree path text above name) : tree.locate path = .ok (above ++ [name]) := by
  obtain ⟨before, hnames⟩ := List.getLast?_eq_some_iff.1 h.last
  have hwalk := h.walk
  rw [hnames, List.dropLast_concat] at hwalk
  obtain ⟨middle, hbefore, hmiddle⟩ := walk_append_eq_ok_iff.1 hwalk
  obtain ⟨rfl, hdirectory⟩ := walk_dot_eq_ok_iff.1 hmiddle
  have hordinary := h.ordinary
  simp only [Bool.or_eq_false_iff, decide_eq_false_iff_not] at hordinary
  obtain ⟨⟨hslash, hdot⟩, hdots⟩ := hordinary
  refine locate_eq_ok_iff.2 ⟨?_, ?_⟩
  · rintro rfl
    exact absurd hnames (by simp [Path.names, Path.pieces])
  · rw [hslash, if_neg Bool.false_ne_true, List.append_nil, hnames]
    exact walk_append_eq_ok_iff.2
      ⟨middle, hbefore, walk_cons_eq_ok_iff.2 ⟨hdirectory, Or.inr (Or.inr ⟨⟨hdot, hdots⟩, rfl⟩)⟩⟩

theorem read (h : Holds tree path text above name) : tree.read path = .ok text :=
  read_eq_ok_iff.2 ⟨above ++ [name], h.locate, h.found⟩

end Holds

/-- What has been written stands in a file, and no other file has changed. -/
theorem write_eq_ok (h : tree.write path text = .ok next) :
    ∃ above name, next.Holds path text above name ∧ Grows {above ++ [name]} tree next := by
  obtain ⟨made, hmade, h⟩ := bind_eq_ok_iff.1 h
  obtain ⟨hmore, hdirectories⟩ := makeDirectories_eq_ok hmade
  cases hlast : (Path.names path).getLast? with
  | none => simp [hlast] at h
  | some name =>
    simp only [hlast] at h
    obtain ⟨above, hwalk, h⟩ := bind_eq_ok_iff.1 h
    split_ifs at h with hname
    · cases h
    · have hgrows := grows_of_put h
      refine ⟨above, name, ⟨hgrows.leadsToDirectory hdirectories, hlast, Bool.eq_false_iff.2 hname, hgrows.walk hwalk, ?_⟩,
        (hmore.mono (Set.empty_subset _)).trans hgrows⟩
      rw [(put_eq_ok h).2, Function.update_self]

end FileTree

end Prebake
