import Prebake.Proofs.FileTree.Growth

/-!
# Paths and places

The names in a path are its pieces between slashes. A path that is put together from names that files may have
(`Path.IsName`) is taken apart into the same names, and a path below a directory leads to what its names lead to from there.
-/

namespace Prebake

namespace Path

variable {directory below path : String} {way before : List String} {name : String}

/-- A name that a file may have. -/
def IsName (name : String) : Prop := name ≠ "" ∧ '/' ∉ name.toList ∧ name ≠ "." ∧ name ≠ ".."

instance (name : String) : Decidable (IsName name) := inferInstanceAs (Decidable (_ ∧ _))

/-! ## Pieces -/

/-- The pieces of a path are those of a text that is split at its slashes. -/
theorem pieces_eq_splitOn (s : List Char) : pieces s = s.splitOn '/' := by
  induction s with
  | nil => rfl
  | cons c s ih =>
    rw [pieces, List.splitOn_cons_eq_if_modifyHead, ih]
    by_cases hc : c = '/'
    · rw [if_pos hc, if_pos (beq_iff_eq.2 hc)]
    · rw [if_neg hc, if_neg (by rwa [beq_iff_eq])]
      obtain ⟨piece, more, hpieces⟩ := List.exists_cons_of_ne_nil (List.splitOn_ne_nil '/' s)
      rw [hpieces]
      rfl

theorem pieces_append_slash (s t : List Char) : pieces (s ++ '/' :: t) = pieces s ++ pieces t := by
  simp only [pieces_eq_splitOn, List.splitOn_append_cons_self]

theorem pieces_cons_slash (s : List Char) : pieces ('/' :: s) = [] :: pieces s := by
  rw [pieces, if_pos rfl]

/-- Any other character belongs to the first piece. -/
theorem pieces_cons_of_ne {c : Char} (hc : c ≠ '/') (s : List Char) :
    ∃ piece more, pieces s = piece :: more ∧ pieces (c :: s) = (c :: piece) :: more := by
  obtain ⟨piece, more, hpieces⟩ := List.exists_cons_of_ne_nil (List.splitOn_ne_nil '/' s)
  rw [← pieces_eq_splitOn] at hpieces
  refine ⟨piece, more, hpieces, ?_⟩
  rw [pieces, if_neg hc, hpieces]

/-- What follows a text without another slash belongs to its last piece. -/
theorem pieces_append {s ending last : List Char} {before : List (List Char)} (hending : '/' ∉ ending)
    (hpieces : pieces s = before ++ [last]) : pieces (s ++ ending) = before ++ [last ++ ending] := by
  induction s generalizing before last with
  | nil =>
    obtain ⟨rfl, rfl⟩ : before = [] ∧ last = [] := by
      cases before with
      | nil => simpa [pieces] using hpieces.symm
      | cons first before => simp [pieces] at hpieces
    rw [List.nil_append, pieces_eq_splitOn, List.splitOn_eq_singleton hending]
    rfl
  | cons c s ih =>
    rw [List.cons_append]
    by_cases hc : c = '/'
    · -- a slash starts a new piece, so the ending belongs to the pieces behind it
      subst hc
      rw [pieces_cons_slash] at hpieces ⊢
      cases before with
      | nil => exact absurd (List.cons.inj hpieces).2 (by rw [pieces_eq_splitOn]; exact List.splitOn_ne_nil '/' s)
      | cons first before =>
        obtain ⟨rfl, hrest⟩ := List.cons.inj hpieces
        rw [ih hrest]
        rfl
    · -- any other character belongs to the first piece, which may be the last one as well
      obtain ⟨piece, more, hs, hcons⟩ := pieces_cons_of_ne hc s
      obtain ⟨piece', more', hs', hcons'⟩ := pieces_cons_of_ne hc (s ++ ending)
      rw [hcons] at hpieces
      rw [hcons']
      cases before with
      | nil =>
        obtain ⟨rfl, rfl⟩ := List.cons.inj hpieces
        rw [ih (show pieces s = [] ++ [piece] from hs)] at hs'
        cases hs'
        rfl
      | cons first before =>
        obtain ⟨rfl, rfl⟩ := List.cons.inj hpieces
        rw [ih (show pieces s = piece :: before ++ [last] from hs)] at hs'
        cases hs'
        rfl

/-! ## Names -/

/-- The names in a path with a slash are those before it and those behind it. -/
theorem names_append_slash (first second : String) : names (first ++ "/" ++ second) = names first ++ names second := by
  have hslash : (first ++ "/" ++ second).toList = first.toList ++ '/' :: second.toList := by
    rw [String.toList_append, String.toList_append, List.append_assoc]
    rfl
  rw [names, hslash, pieces_append_slash, List.filter_append, List.map_append]
  rfl

/-- The names in a path below a directory are those of the directory and those below. -/
theorem names_join (directory below : String) : names (join directory below) = names directory ++ names below := by
  rw [join]
  split_ifs with h
  · rw [Bool.or_eq_true, decide_eq_true_eq] at h
    rcases h with rfl | hslash
    · rw [String.empty_append]
      rfl
    · obtain ⟨before, hbefore⟩ := List.getLast?_eq_some_iff.1 (beq_iff_eq.1 hslash)
      have hdirectory : directory = String.ofList before ++ "/" := by
        rw [← String.toList_inj, hbefore, String.toList_append, String.toList_ofList]
        rfl
      have hnames : names directory = names (String.ofList before) ++ [] := by
        rw [hdirectory, ← String.append_empty (s := String.ofList before ++ "/"), names_append_slash]
        rfl
      rw [hnames, hdirectory, names_append_slash, List.append_nil]
  · exact names_append_slash directory below

/-- The pieces of a path of names are the names. -/
theorem pieces_ofNames (hway : ∀ name ∈ way, IsName name) (hnil : way ≠ []) :
    pieces (ofNames false way).toList = way.map String.toList := by
  rw [ofNames, if_neg Bool.false_ne_true, String.empty_append, String.toList_intercalate, pieces_eq_splitOn]
  refine List.splitOn_intercalate '/' ?_ (by simpa using hnil)
  intro piece hpiece
  obtain ⟨name, hname, rfl⟩ := List.mem_map.1 hpiece
  exact (hway name hname).2.1

theorem map_ofList_toList (way : List String) : (way.map String.toList).map String.ofList = way := by
  rw [List.map_map]
  exact (List.map_congr_left fun name _ => String.ofList_toList).trans (List.map_id way)

/-- The pieces are the names where none of them is empty. -/
theorem names_of_pieces {pieces : List (List Char)} (hpieces : Path.pieces path.toList = pieces)
    (hne : ∀ piece ∈ pieces, piece ≠ []) : names path = pieces.map String.ofList := by
  rw [names, hpieces, List.filter_eq_self.2]
  intro piece hpiece
  rw [Bool.not_eq_true', List.isEmpty_eq_false_iff]
  exact hne piece hpiece

/-- The path of some names has these names in it. -/
theorem names_ofNames (hway : ∀ name ∈ way, IsName name) : names (ofNames false way) = way := by
  by_cases hnil : way = []
  · subst hnil
    rfl
  · rw [names_of_pieces (pieces_ofNames hway hnil), map_ofList_toList]
    intro piece hpiece
    obtain ⟨name, hname, rfl⟩ := List.mem_map.1 hpiece
    rw [ne_eq, String.toList_eq_nil_iff]
    exact (hway name hname).1

/-- Where a path of names ends with some text, another end changes its last name only. -/
theorem names_append {start ending : String} (hway : ∀ name ∈ way, IsName name) (h : ofNames false way = start ++ ending)
    (hslash : '/' ∉ ending.toList) (hending : ending ≠ "") :
    ∃ before name, way = before ++ [name ++ ending] ∧
      ∀ other, '/' ∉ other.toList → other ≠ "" → names (start ++ other) = before ++ [name ++ other] := by
  have hnil : way ≠ [] := by
    rintro rfl
    have hempty : start ++ ending = "" := h.symm
    exact hending (String.append_eq_empty_iff.1 hempty).2
  obtain ⟨before, last, hstart⟩ : ∃ before last, pieces start.toList = before ++ [last] := by
    have hne : pieces start.toList ≠ [] := by
      rw [pieces_eq_splitOn]
      exact List.splitOn_ne_nil '/' _
    exact ⟨_, _, (List.dropLast_concat_getLast hne).symm⟩
  have hpieces := pieces_ofNames hway hnil
  rw [h, String.toList_append, pieces_append hslash hstart] at hpieces
  have hsplit : way = before.map String.ofList ++ [String.ofList last ++ ending] := by
    rw [← map_ofList_toList way, ← hpieces, List.map_append, List.map_singleton, String.ofList_append, String.ofList_toList]
  refine ⟨before.map String.ofList, String.ofList last, hsplit, fun other hother hne => ?_⟩
  have hpieces : pieces (start ++ other).toList = before ++ [last ++ other.toList] := by
    rw [String.toList_append, pieces_append hother hstart]
  rw [names_of_pieces hpieces, List.map_append, List.map_singleton, String.ofList_append, String.ofList_toList]
  intro piece hpiece
  rcases List.mem_append.1 hpiece with hpiece | hpiece
  · rintro rfl
    exact (hway "" (hsplit ▸ List.mem_append_left _ (List.mem_map_of_mem hpiece))).1 rfl
  · rw [List.mem_singleton.1 hpiece]
    simp [hne]

/-! ## Ends -/

/-- How a path ends shows at its last part. -/
theorem endsWithSlash_append (start : String) {ending : String} (h : ending ≠ "") :
    endsWithSlash (start ++ ending) = endsWithSlash ending := by
  rw [endsWithSlash, endsWithSlash, String.toList_append, List.getLast?_append_of_ne_nil]
  rwa [ne_eq, String.toList_eq_nil_iff]

/-- A path below a directory ends as what is below. -/
theorem endsWithSlash_join (directory : String) (h : below ≠ "") :
    endsWithSlash (join directory below) = endsWithSlash below := by
  rw [join]
  split_ifs
  · exact endsWithSlash_append _ h
  · exact endsWithSlash_append _ h

/-- The path of some names ends with the last of them. -/
theorem isSuffix_ofNames (before : List String) (name : String) :
    name.toList <:+ (ofNames false (before ++ [name])).toList := by
  rw [ofNames, if_neg Bool.false_ne_true, String.empty_append]
  by_cases hnil : before = []
  · subst hnil
    have hsingle : String.intercalate "/" ([] ++ [name]) = name := String.intercalate_singleton
    exact ⟨[], (congrArg String.toList hsingle).symm⟩
  · rw [String.intercalate_append_of_ne_nil hnil (List.cons_ne_nil _ _), String.intercalate_singleton, String.toList_append]
    exact List.suffix_append _ _

/-! ## Ways down -/

/-- A path that leads down to a file by some names. -/
structure LeadsDown (below : String) (way : List String) : Prop where
  names_eq : names below = way
  ne_nil : way ≠ []
  ends : endsWithSlash below = false
  ordinary : ∀ name ∈ way, name ≠ "." ∧ name ≠ ".."

theorem LeadsDown.ne_empty (h : LeadsDown below way) : below ≠ "" := by
  rintro rfl
  exact h.ne_nil h.names_eq.symm

end Path

namespace FileTree

variable {tree : FileTree} {directory below : String} {way : List String} {place base : Place}

/-- All names in a tree are names that files may have. -/
def WellNamed (tree : FileTree) : Prop := ∀ entry ∈ tree.entries, ∀ name ∈ entry.1, Path.IsName name

instance (tree : FileTree) : Decidable tree.WellNamed := inferInstanceAs (Decidable (∀ entry ∈ tree.entries, _))

/-- Whatever is found has a place made of names that files may have. -/
theorem WellNamed.of_find? (h : tree.WellNamed) {entry : FileEntry} (hfound : tree.find? place = some entry) {name : String}
    (hname : name ∈ place) : Path.IsName name :=
  h _ (mem_of_find? (List.ne_nil_of_mem hname) hfound) name hname

/-- A path below a directory is followed by going to the directory and down from there. -/
theorem locate_join_eq_ok_iff (h : Path.LeadsDown below way) : tree.locate (Path.join directory below) = .ok place ↔
    ∃ base, tree.walk [] (Path.names directory) = .ok base ∧ tree.walk base way = .ok place := by
  have hnames : Path.names (Path.join directory below) = Path.names directory ++ way := by
    rw [Path.names_join, h.names_eq]
  have hpath : Path.join directory below ≠ "" := by
    intro hempty
    rw [hempty] at hnames
    exact h.ne_nil (List.append_eq_nil_iff.1 hnames.symm).2
  rw [locate_eq_ok_iff, and_iff_right hpath, hnames, Path.endsWithSlash_join directory h.ne_empty, h.ends,
    if_neg Bool.false_ne_true, List.append_nil, walk_append_eq_ok_iff]

/-- A path below a directory leads down from where the directory is. -/
theorem eq_of_locate_join (h : Path.LeadsDown below way) (hlocate : tree.locate (Path.join directory below) = .ok place) :
    ∃ base, tree.walk [] (Path.names directory) = .ok base ∧ place = base ++ way := by
  obtain ⟨base, hbase, hwalk⟩ := (locate_join_eq_ok_iff h).1 hlocate
  exact ⟨base, hbase, eq_of_walk h.ordinary hwalk⟩

/-- A path below a directory leads to what stands at the end of the way down. -/
theorem locate_join_of_find? {entry : FileEntry} (h : Path.LeadsDown below way)
    (hbase : tree.walk [] (Path.names directory) = .ok base) (hfound : tree.find? (base ++ way) = some entry) :
    tree.locate (Path.join directory below) = .ok (base ++ way) :=
  (locate_join_eq_ok_iff h).2 ⟨base, hbase, walk_down h.ordinary hfound⟩

end FileTree

end Prebake
