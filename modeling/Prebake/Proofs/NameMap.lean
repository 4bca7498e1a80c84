import Mathlib.Algebra.GroupWithZero.Nat
import Prebake.NameMap

/-!
# Looking names up in maps

A map is what `find?` tells of it: two maps that tell the same are equal, and each operation is known by what it does to
`find?`.
-/

namespace Prebake

variable {α β : Type} {name other : String} {value : α}

/-- A list of entries tells of the first entry with a name. -/
theorem lookup_cons (entry : String × α) (entries : List (String × α)) :
    (entry :: entries).lookup name = if name = entry.1 then some entry.2 else entries.lookup name := by
  obtain ⟨first, value⟩ := entry
  by_cases h : name = first
  · simp [h]
  · simp [List.lookup_cons, h, beq_eq_false_iff_ne.2 h]

/-- A function of the values does not change which entry a name has. -/
theorem lookup_map (f : α → β) (entries : List (String × α)) :
    (entries.map fun entry => (entry.1, f entry.2)).lookup name = (entries.lookup name).map f := by
  induction entries with
  | nil => rfl
  | cons entry rest ih =>
    rw [List.map_cons, lookup_cons, lookup_cons, ih]
    split <;> rfl

/-- An inserted entry takes the place of the one with its name, and all others are kept. -/
theorem lookup_insertEntry (entries : List (String × α)) :
    (insertEntry name value entries).lookup other = if other = name then some value else entries.lookup other := by
  induction entries with
  | nil => simp [insertEntry, lookup_cons]
  | cons entry rest ih =>
    unfold insertEntry
    split
    · rw [lookup_cons]
    · split
      · rename_i same
        simp only [lookup_cons, ← same]
        split <;> rfl
      · rename_i differs
        rw [lookup_cons, ih, lookup_cons]
        by_cases h : other = entry.1
        · subst h
          simp [Ne.symm differs]
        · simp [h]

/-- In entries of increasing names, a name below all of them has no value. -/
theorem lookup_eq_none_of_lt {entries : List (String × α)} (h : ∀ entry ∈ entries, name < entry.1) :
    entries.lookup name = none := by
  refine List.lookup_eq_none_iff.2 fun entry hentry => ?_
  simpa using Std.ne_of_lt (h entry hentry)

/-- If the name of the first entry is below those of other entries, lookups tell the two apart. -/
theorem exists_lookup_ne {first second : String × α} (rest : List (String × α)) {others : List (String × α)}
    (hothers : ∀ entry ∈ others, second.1 < entry.1) (hlt : first.1 < second.1) :
    ∃ name, (first :: rest).lookup name ≠ (second :: others).lookup name := by
  have habove : ∀ entry ∈ second :: others, first.1 < entry.1 := by
    intro entry hentry
    rcases List.mem_cons.1 hentry with rfl | hentry
    · exact hlt
    · exact String.lt_trans hlt (hothers entry hentry)
  refine ⟨first.1, ?_⟩
  rw [lookup_eq_none_of_lt habove, lookup_cons]
  simp

/-- Entries of increasing names are known by their lookups. -/
theorem eq_of_lookup_eq {a b : List (String × α)} (ha : a.Pairwise fun x y => x.1 < y.1)
    (hb : b.Pairwise fun x y => x.1 < y.1) (h : ∀ name, a.lookup name = b.lookup name) : a = b := by
  induction a generalizing b with
  | nil =>
    cases b with
    | nil => rfl
    | cons second b => simpa [lookup_cons] using h second.1
  | cons first a ih =>
    cases b with
    | nil => simpa [lookup_cons] using h first.1
    | cons second b =>
      obtain ⟨hfirst, ha⟩ := List.pairwise_cons.1 ha
      obtain ⟨hsecond, hb⟩ := List.pairwise_cons.1 hb
      have hsame : first.1 = second.1 := by
        by_cases hlt : first.1 < second.1
        · obtain ⟨name, hname⟩ := exists_lookup_ne a hsecond hlt
          exact absurd (h name) hname
        · by_cases hgt : second.1 < first.1
          · obtain ⟨name, hname⟩ := exists_lookup_ne b hfirst hgt
            exact absurd (h name).symm hname
          · exact Std.le_antisymm (Std.not_lt.1 hgt) (Std.not_lt.1 hlt)
      have hvalue : first.2 = second.2 := by
        simpa [lookup_cons, hsame] using h second.1
      have hrest : a = b := by
        refine ih ha hb fun name => ?_
        by_cases hname : name = second.1
        · subst hname
          rw [lookup_eq_none_of_lt hsecond, lookup_eq_none_of_lt fun entry hentry => hsame ▸ hfirst entry hentry]
        · simpa [lookup_cons, hname, hsame] using h name
      rw [hrest, Prod.ext hsame hvalue]

namespace NameMap

/-- A map tells of a new value under its name, and of all other names what it told before. -/
theorem find?_insert (map : NameMap α) :
    (map.insert name value).find? other = if other = name then some value else map.find? other :=
  lookup_insertEntry map.entries

@[simp] theorem find?_insert_self (map : NameMap α) : (map.insert name value).find? name = some value := by
  simp [find?_insert]

theorem find?_insert_of_ne (map : NameMap α) (h : other ≠ name) :
    (map.insert name value).find? other = map.find? other := by
  simp [find?_insert, h]

/-- Maps that tell the same of each name are equal. -/
theorem ext_find? {a b : NameMap α} (h : ∀ name, a.find? name = b.find? name) : a = b :=
  ext (eq_of_lookup_eq a.increasing b.increasing h)

theorem find?_mapValues (f : α → β) (map : NameMap α) : (map.mapValues f).find? name = (map.find? name).map f :=
  lookup_map f map.entries

/-- In the union of two maps the second one is asked first. -/
theorem find?_union (a b : NameMap α) : (a.union b).find? name = (b.find? name).or (a.find? name) := by
  obtain ⟨entries, increasing⟩ := b
  show (entries.foldl (fun all entry => all.insert entry.1 entry.2) a).find? name =
    (entries.lookup name).or (a.find? name)
  induction entries generalizing a with
  | nil => rfl
  | cons entry rest ih =>
    obtain ⟨habove, hrest⟩ := List.pairwise_cons.1 increasing
    rw [List.foldl_cons, ih _ hrest, find?_insert]
    by_cases h : name = entry.1
    · simp [h, lookup_cons, lookup_eq_none_of_lt habove]
    · simp [h, lookup_cons]

/-- Values can be changed before a union as well as after it. -/
theorem mapValues_union (f : α → β) (a b : NameMap α) : (a.union b).mapValues f = (a.mapValues f).union (b.mapValues f) := by
  refine ext_find? fun name => ?_
  rw [find?_mapValues, find?_union, find?_union, find?_mapValues, find?_mapValues]
  cases b.find? name <;> rfl

/-! ## Names -/

/-- The names of a map are those that it contains. -/
theorem mem_names_iff {map : NameMap α} : name ∈ map.names ↔ map.contains name = true := by
  obtain ⟨entries, increasing⟩ := map
  show name ∈ entries.map (·.1) ↔ (entries.lookup name).isSome = true
  clear increasing
  induction entries with
  | nil => simp
  | cons entry rest ih =>
    rw [List.map_cons, List.mem_cons, lookup_cons, ih]
    split <;> simp_all

theorem contains_insert {map : NameMap α} :
    (map.insert name value).contains other = true ↔ other = name ∨ map.contains other = true := by
  rw [contains, find?_insert]
  split <;> simp_all [contains]

theorem contains_union {a b : NameMap α} :
    (a.union b).contains name = true ↔ a.contains name = true ∨ b.contains name = true := by
  simp only [contains, find?_union, Option.isSome_or, Bool.or_eq_true]
  exact or_comm

theorem contains_mapValues (f : α → β) (map : NameMap α) : (map.mapValues f).contains name = map.contains name := by
  rw [contains, contains, find?_mapValues, Option.isSome_map]

/-- A map has no name twice. -/
theorem nodup_names (map : NameMap α) : map.names.Nodup := by
  have hincreasing : map.names.Pairwise (· < ·) := List.pairwise_map.2 map.increasing
  exact hincreasing.imp fun hlt => Std.ne_of_lt hlt

/-- An entry is what is found for its name. -/
theorem find?_of_mem_entries {map : NameMap α} {entry : String × α} (h : entry ∈ map.entries) :
    map.find? entry.1 = some entry.2 := by
  obtain ⟨entries, increasing⟩ := map
  change entry ∈ entries at h
  change entries.lookup entry.1 = some entry.2
  induction entries with
  | nil => cases h
  | cons first rest ih =>
    obtain ⟨habove, hrest⟩ := List.pairwise_cons.1 increasing
    rw [lookup_cons]
    rcases List.mem_cons.1 h with rfl | h
    · exact if_pos rfl
    · rw [if_neg (Std.ne_of_lt (habove entry h)).symm]
      exact ih hrest h

section Names

variable {names : List String} (hnodup : names.Nodup)

include hnodup

/-- A list of the names of a map without repetitions has them in some order. -/
theorem perm_names {map : NameMap α} (hnames : ∀ name, map.contains name = true ↔ name ∈ names) :
    map.names.Perm names :=
  (List.perm_ext_iff_of_nodup map.nodup_names hnodup).2 fun name => by rw [mem_names_iff, hnames]

/-- A map has as many entries as there are names that it has. -/
theorem size_eq_length {map : NameMap α} (hnames : ∀ name, map.contains name = true ↔ name ∈ names) :
    map.size = names.length := by
  rw [← (perm_names hnodup hnames).length_eq, NameMap.names, List.length_map, size]

/-- The entries of which something is true are counted by their names. -/
theorem countP_entries {map : NameMap α} (hnames : ∀ name, map.contains name = true ↔ name ∈ names)
    (q : String × α → Bool) :
    map.entries.countP q = names.countP fun name => (map.find? name).any fun value => q (name, value) := by
  rw [← (perm_names hnodup hnames).countP_eq, NameMap.names, List.countP_map]
  refine List.countP_congr fun entry hentry => ?_
  rw [Function.comp_apply, find?_of_mem_entries hentry]
  rfl

/-- The numbers in a map are added up by their names. -/
theorem sum_values {map : NameMap Nat} (hnames : ∀ name, map.contains name = true ↔ name ∈ names) :
    map.values.sum = (names.map fun name => (map.find? name).getD 0).sum := by
  have hvalues : map.values = map.names.map fun name => (map.find? name).getD 0 := by
    rw [values, NameMap.names, List.map_map]
    refine List.map_congr_left fun entry hentry => ?_
    rw [Function.comp_apply, find?_of_mem_entries hentry]
    rfl
  rw [hvalues, ((perm_names hnodup hnames).map _).sum_nat]

end Names

/-! ## Unions of several maps -/

section Foldl

variable {ι : Type} {maps : ι → NameMap α} {items : List ι}

/-- The union of several maps has the names of all of them. -/
theorem contains_foldl_union (first : NameMap α) :
    (items.foldl (fun map item => map.union (maps item)) first).contains name = true ↔
      first.contains name = true ∨ ∃ item ∈ items, (maps item).contains name = true := by
  induction items generalizing first with
  | nil => simp
  | cons item items ih =>
    rw [List.foldl_cons, ih, contains_union, or_assoc]
    simp

/-- A name that none of several maps has keeps the value it had before they were added. -/
theorem find?_foldl_union_of_forall_none (h : ∀ item ∈ items, (maps item).find? name = none) (first : NameMap α) :
    (items.foldl (fun map item => map.union (maps item)) first).find? name = first.find? name := by
  induction items generalizing first with
  | nil => rfl
  | cons item items ih =>
    rw [List.foldl_cons, ih fun other hother => h other (List.mem_cons_of_mem _ hother), find?_union,
      h item List.mem_cons_self, Option.none_or]

/-- A name that only one of several maps has gets its value from that one. -/
theorem find?_foldl_union_of_mem {item : ι} (hitem : item ∈ items) (hvalue : (maps item).find? name = some value)
    (hothers : items.Pairwise fun i j => (maps i).find? name = none ∨ (maps j).find? name = none)
    (first : NameMap α) :
    (items.foldl (fun map item => map.union (maps item)) first).find? name = some value := by
  induction items generalizing first with
  | nil => cases hitem
  | cons head items ih =>
    obtain ⟨hhead, hothers⟩ := List.pairwise_cons.1 hothers
    rw [List.foldl_cons]
    rcases List.mem_cons.1 hitem with rfl | hitem
    · have hrest : ∀ other ∈ items, (maps other).find? name = none := by
        intro other hother
        rcases hhead other hother with hnone | hnone
        · rw [hvalue] at hnone
          cases hnone
        · exact hnone
      rw [find?_foldl_union_of_forall_none hrest, find?_union, hvalue, Option.some_or]
    · exact ih hitem hothers _

end Foldl

end NameMap

namespace NameSet

variable {set : NameSet} {names : List String}

/-- Names that are added are there, beside those that were. -/
theorem mem_names_addAll : name ∈ (set.addAll names).names ↔ name ∈ set.names ∨ name ∈ names := by
  induction names generalizing set with
  | nil => simp [addAll]
  | cons first names ih =>
    have hfirst : name ∈ (set.add first).names ↔ name = first ∨ name ∈ set.names := by
      rw [NameMap.mem_names_iff, NameMap.mem_names_iff]
      exact NameMap.contains_insert
    refine ih.trans ?_
    rw [hfirst, List.mem_cons, or_comm (a := name = first), or_assoc]

@[simp] theorem mem_names_ofList : name ∈ (ofList names).names ↔ name ∈ names :=
  mem_names_addAll.trans (or_iff_right List.not_mem_nil)

/-- Sets with the same names are equal. -/
theorem ext_names {a b : NameSet} (h : ∀ name, name ∈ a.names ↔ name ∈ b.names) : a = b := by
  refine NameMap.ext_find? fun name => ?_
  have hname := h name
  rw [NameMap.mem_names_iff, NameMap.mem_names_iff, NameMap.contains, NameMap.contains] at hname
  cases ha : a.find? name <;> cases hb : b.find? name <;> simp_all

end NameSet

end Prebake
