import Mathlib.Data.List.Induction
import Mathlib.Data.List.Nodup
import Mathlib.Data.Set.Basic
import Prebake.FileTree.Basic
import Prebake.Proofs.Except

/-!
# How file trees grow

Whatever is done to a file tree, directories stay directories, and a file keeps its text unless another one is put in its
place (`FileTree.Grows`). So what a path names stays where it is.
-/

namespace Prebake

namespace FileTree

variable {tree next last : FileTree} {place other : Place} {entry : FileEntry} {text : String} {names : List String}

/-! ## What stands where -/

theorem find?_of_ne_nil (h : place ≠ []) : tree.find? place = tree.entries.lookup place := if_neg h

theorem find?_nil (tree : FileTree) : tree.find? [] = some .directory := if_pos rfl

/-- What stands below the root is an entry. -/
theorem mem_of_find? (hplace : place ≠ []) (h : tree.find? place = some entry) : (place, entry) ∈ tree.entries := by
  rw [find?_of_ne_nil hplace] at h
  obtain ⟨before, rest, hentries, -⟩ := List.lookup_eq_some_iff.1 h
  rw [hentries]
  exact List.mem_append_right _ List.mem_cons_self

/-- An entry is found at its place, where it is the only one. -/
theorem find?_of_mem (h : (place, entry) ∈ tree.entries) : tree.find? place = some entry := by
  have hplace : place ≠ [] := (tree.rooted _ h).1
  cases hfound : tree.find? place with
  | none =>
    rw [find?_of_ne_nil hplace] at hfound
    exact absurd (List.lookup_eq_none_iff.1 hfound _ h) (by simp)
  | some found =>
    have hmem := mem_of_find? hplace hfound
    rw [(Prod.mk.inj (List.inj_on_of_nodup_map tree.nodup hmem h rfl)).2]

/-- Whatever is in a tree lies in a directory. -/
theorem find?_dropLast (hplace : place ≠ []) (h : tree.find? place = some entry) :
    tree.find? place.dropLast = some .directory := by
  rcases (tree.rooted _ (mem_of_find? hplace h)).2 with hroot | hparent
  · rw [hroot, find?_nil]
  · exact find?_of_mem hparent

/-- Everything on the way to something in a tree is a directory. -/
theorem find?_of_append (hnames : names ≠ []) (h : tree.find? (place ++ names) = some entry) :
    tree.find? place = some .directory := by
  induction names using List.reverseRecOn generalizing entry with
  | nil => exact absurd rfl hnames
  | append_singleton names name ih =>
    have hparent := find?_dropLast (by simp) h
    rw [← List.append_assoc, List.dropLast_concat] at hparent
    by_cases hempty : names = []
    · rwa [hempty, List.append_nil] at hparent
    · exact ih hempty hparent

/-! ## Ways -/

/-- A way goes on from a directory: where it is, one step up, or one step down. -/
theorem walk_cons_eq_ok_iff {name : String} : tree.walk other (name :: names) = .ok place ↔
    tree.find? other = some .directory ∧ (name = "." ∧ tree.walk other names = .ok place ∨
      name = ".." ∧ tree.walk other.dropLast names = .ok place ∨
      (name ≠ "." ∧ name ≠ "..") ∧ tree.walk (other ++ [name]) names = .ok place) := by
  rw [walk]
  cases hfound : tree.find? other with
  | none => simp
  | some entry =>
    cases entry with
    | file text => simp
    | directory =>
      dsimp only
      by_cases hdot : name = "."
      · subst hdot
        simp
      · rw [if_neg hdot]
        by_cases hdots : name = ".."
        · subst hdots
          simp
        · simp [hdot, hdots]

/-- A path leads where its names lead, and to a directory if it ends with a slash. -/
theorem locate_eq_ok_iff {path : String} : tree.locate path = .ok place ↔
    path ≠ "" ∧ tree.walk [] (Path.names path ++ if Path.endsWithSlash path then ["."] else []) = .ok place := by
  rw [locate]
  by_cases hpath : path = ""
  · simp [hpath]
  · rw [if_neg hpath, and_iff_right hpath]

/-- The text that is read is that of the file at the place. -/
theorem read_eq_ok_iff {path : String} :
    tree.read path = .ok text ↔ ∃ place, tree.locate path = .ok place ∧ tree.find? place = some (.file text) := by
  refine bind_eq_ok_iff.trans (exists_congr fun place => and_congr_right fun _ => ?_)
  cases hfound : tree.find? place with
  | none => simp
  | some entry =>
    cases entry with
    | directory => simp
    | file held => simp [pure, Except.pure]

/-- A way may be followed in two parts. -/
theorem walk_append_eq_ok_iff {first second : List String} : tree.walk other (first ++ second) = .ok place ↔
    ∃ middle, tree.walk other first = .ok middle ∧ tree.walk middle second = .ok place := by
  induction first generalizing other with
  | nil =>
    constructor
    · intro h
      exact ⟨other, rfl, h⟩
    · rintro ⟨middle, hmiddle, h⟩
      cases hmiddle
      exact h
  | cons name first ih =>
    rw [List.cons_append]
    simp only [walk_cons_eq_ok_iff, ih]
    constructor
    · rintro ⟨hdirectory, ⟨hname, middle, hmiddle, hrest⟩ | ⟨hname, middle, hmiddle, hrest⟩ | ⟨hname, middle, hmiddle, hrest⟩⟩
      · exact ⟨middle, ⟨hdirectory, Or.inl ⟨hname, hmiddle⟩⟩, hrest⟩
      · exact ⟨middle, ⟨hdirectory, Or.inr (Or.inl ⟨hname, hmiddle⟩)⟩, hrest⟩
      · exact ⟨middle, ⟨hdirectory, Or.inr (Or.inr ⟨hname, hmiddle⟩)⟩, hrest⟩
    · rintro ⟨middle, ⟨hdirectory, ⟨hname, hmiddle⟩ | ⟨hname, hmiddle⟩ | ⟨hname, hmiddle⟩⟩, hrest⟩
      · exact ⟨hdirectory, Or.inl ⟨hname, middle, hmiddle, hrest⟩⟩
      · exact ⟨hdirectory, Or.inr (Or.inl ⟨hname, middle, hmiddle, hrest⟩)⟩
      · exact ⟨hdirectory, Or.inr (Or.inr ⟨hname, middle, hmiddle, hrest⟩)⟩

/-- The name `.` at the end of a way tells that a directory is there. -/
theorem walk_dot_eq_ok_iff : tree.walk other ["."] = .ok place ↔ other = place ∧ tree.find? place = some .directory := by
  rw [walk_cons_eq_ok_iff]
  constructor
  · rintro ⟨hdirectory, ⟨-, hsame⟩ | ⟨hname, -⟩ | ⟨⟨hname, -⟩, -⟩⟩
    · cases hsame
      exact ⟨rfl, hdirectory⟩
    · exact absurd hname (by decide)
    · exact absurd rfl hname
  · rintro ⟨rfl, hdirectory⟩
    exact ⟨hdirectory, Or.inl ⟨rfl, rfl⟩⟩

/-- Names that lead only downwards lead to what stands below. -/
theorem walk_down (hnames : ∀ name ∈ names, name ≠ "." ∧ name ≠ "..") (hfound : tree.find? (other ++ names) = some entry) :
    tree.walk other names = .ok (other ++ names) := by
  induction names generalizing other with
  | nil => rw [List.append_nil]; rfl
  | cons name names ih =>
    obtain ⟨hname, hnames⟩ := List.forall_mem_cons.1 hnames
    have hsplit : other ++ name :: names = other ++ [name] ++ names := by simp
    refine walk_cons_eq_ok_iff.2 ⟨find?_of_append (List.cons_ne_nil _ _) hfound, Or.inr (Or.inr ⟨hname, ?_⟩)⟩
    rw [hsplit] at hfound ⊢
    exact ih hnames hfound

/-- What a path leads to is what its names lead to. -/
theorem walk_of_locate {path : String} (h : tree.locate path = .ok place) : tree.walk [] (Path.names path) = .ok place := by
  obtain ⟨middle, hnames, hrest⟩ := walk_append_eq_ok_iff.1 (locate_eq_ok_iff.1 h).2
  split_ifs at hrest with hslash
  · rwa [← (walk_dot_eq_ok_iff.1 hrest).1]
  · cases hrest
    exact hnames

/-- A way that goes down only leads to what its names say. -/
theorem eq_of_walk (hnames : ∀ name ∈ names, name ≠ "." ∧ name ≠ "..") (h : tree.walk other names = .ok place) :
    place = other ++ names := by
  induction names generalizing other with
  | nil =>
    cases h
    exact (List.append_nil _).symm
  | cons name names ih =>
    obtain ⟨hname, hnames⟩ := List.forall_mem_cons.1 hnames
    obtain ⟨-, ⟨hdot, -⟩ | ⟨hdots, -⟩ | ⟨-, hrest⟩⟩ := walk_cons_eq_ok_iff.1 h
    · exact absurd hdot hname.1
    · exact absurd hdots hname.2
    · rw [ih hnames hrest, List.append_assoc, List.singleton_append]

/-! ## Growth -/

/-- What a tree has become: directories have stayed, and no file but those at some places is new or has another text. -/
structure Grows (places : Set Place) (tree next : FileTree) : Prop where
  directories : ∀ place, tree.find? place = some .directory → next.find? place = some .directory
  files : ∀ place text, place ∉ places → (next.find? place = some (.file text) ↔ tree.find? place = some (.file text))

namespace Grows

variable {places others : Set Place}

theorem refl (places : Set Place) (tree : FileTree) : Grows places tree tree := ⟨fun _ h => h, fun _ _ _ => Iff.rfl⟩

theorem trans (h : Grows places tree next) (hnext : Grows places next last) : Grows places tree last where
  directories place hplace := hnext.directories place (h.directories place hplace)
  files place text hplace := (hnext.files place text hplace).trans (h.files place text hplace)

/-- Where more may be changed, less is promised. -/
theorem mono (h : Grows places tree next) (hsubset : places ⊆ others) : Grows others tree next where
  directories := h.directories
  files place text hplace := h.files place text fun hin => hplace (hsubset hin)

/-- Names lead to the same place in a tree that has grown. -/
theorem walk (h : Grows places tree next) (hwalk : tree.walk other names = .ok place) : next.walk other names = .ok place := by
  induction names generalizing other with
  | nil => exact hwalk
  | cons name names ih =>
    obtain ⟨hdirectory, hrest⟩ := walk_cons_eq_ok_iff.1 hwalk
    refine walk_cons_eq_ok_iff.2 ⟨h.directories other hdirectory, ?_⟩
    rcases hrest with ⟨hname, hrest⟩ | ⟨hname, hrest⟩ | ⟨hname, hrest⟩
    · exact Or.inl ⟨hname, ih hrest⟩
    · exact Or.inr (Or.inl ⟨hname, ih hrest⟩)
    · exact Or.inr (Or.inr ⟨hname, ih hrest⟩)

/-- A path that leads to a place goes on leading there. -/
theorem locate {path : String} (h : Grows places tree next) (hlocate : tree.locate path = .ok place) :
    next.locate path = .ok place := by
  obtain ⟨hpath, hwalk⟩ := locate_eq_ok_iff.1 hlocate
  exact locate_eq_ok_iff.2 ⟨hpath, h.walk hwalk⟩

/-- A file keeps its text unless another one is put in its place. -/
theorem read {path : String} (h : Grows places tree next) (hplaces : ∀ place ∈ places, next.locate path ≠ .ok place)
    (hread : tree.read path = .ok text) : next.read path = .ok text := by
  obtain ⟨place, hlocate, hfound⟩ := read_eq_ok_iff.1 hread
  have hnext := h.locate hlocate
  exact read_eq_ok_iff.2 ⟨place, hnext, (h.files place text fun hin => hplaces place hin hnext).2 hfound⟩

end Grows

/-- A file has changed if it did not hold this text before. -/
theorem mem_changedSince_iff : (place, text) ∈ next.changedSince tree ↔
    next.find? place = some (.file text) ∧ tree.find? place ≠ some (.file text) := by
  constructor
  · intro h
    obtain ⟨⟨other, entry⟩, hmem, hentry⟩ := List.mem_filterMap.1 h
    cases entry with
    | directory => cases hentry
    | file held =>
      dsimp only at hentry
      split_ifs at hentry with hheld
      cases hentry
      exact ⟨find?_of_mem hmem, hheld⟩
  · rintro ⟨hfound, hnew⟩
    have hplace : place ≠ [] := by
      rintro rfl
      rw [find?_nil] at hfound
      cases hfound
    exact List.mem_filterMap.2 ⟨(place, .file text), mem_of_find? hplace hfound, if_neg hnew⟩

/-- No file has changed since the same tree. -/
theorem changedSince_self (tree : FileTree) : tree.changedSince tree = [] := by
  refine List.eq_nil_iff_forall_not_mem.2 fun ⟨place, text⟩ hin => ?_
  obtain ⟨hfound, hnew⟩ := mem_changedSince_iff.1 hin
  exact hnew hfound

end FileTree

end Prebake
