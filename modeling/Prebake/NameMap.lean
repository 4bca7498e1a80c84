/-!
# Maps from names

A `NameMap` lists its entries in increasing order of their names, so that two maps with the same entries are equal and
what is written from a map comes out in one order only. Names are compared by code points. A `NameSet` is a map that
tells nothing about its names.
-/

namespace Prebake

/-- The entries in increasing order of names with one more entry, which replaces an entry of the same name. -/
def insertEntry {α : Type} (name : String) (value : α) : List (String × α) → List (String × α)
  | [] => [(name, value)]
  | entry :: rest =>
    if name < entry.1 then (name, value) :: entry :: rest
    else if name = entry.1 then (name, value) :: rest
    else entry :: insertEntry name value rest

/-- An entry of the result is the new one or was there before. -/
theorem mem_of_mem_insertEntry {α : Type} {name : String} {value : α} {entry : String × α}
    {entries : List (String × α)} (h : entry ∈ insertEntry name value entries) :
    entry = (name, value) ∨ entry ∈ entries := by
  induction entries with
  | nil => exact Or.inl (by simpa [insertEntry] using h)
  | cons first rest ih =>
    unfold insertEntry at h
    split at h
    · simpa using h
    · split at h
      · rcases List.mem_cons.1 h with h | h
        · exact Or.inl h
        · exact Or.inr (List.mem_cons_of_mem _ h)
      · rcases List.mem_cons.1 h with h | h
        · exact Or.inr (h ▸ List.mem_cons_self)
        · rcases ih h with h | h
          · exact Or.inl h
          · exact Or.inr (List.mem_cons_of_mem _ h)

/-- Inserting keeps the order of names. -/
theorem pairwise_insertEntry {α : Type} (name : String) (value : α) {entries : List (String × α)}
    (h : entries.Pairwise fun a b => a.1 < b.1) :
    (insertEntry name value entries).Pairwise fun a b => a.1 < b.1 := by
  induction entries with
  | nil => simp [insertEntry]
  | cons first rest ih =>
    obtain ⟨above, ordered⟩ := List.pairwise_cons.1 h
    unfold insertEntry
    split
    · rename_i less
      refine List.pairwise_cons.2 ⟨fun entry mem => ?_, h⟩
      rcases List.mem_cons.1 mem with mem | mem
      · exact mem ▸ less
      · exact String.lt_trans less (above entry mem)
    · rename_i notLess
      split
      · rename_i same
        exact List.pairwise_cons.2 ⟨fun entry mem => same ▸ above entry mem, ordered⟩
      · rename_i differs
        refine List.pairwise_cons.2 ⟨fun entry mem => ?_, ih ordered⟩
        rcases mem_of_mem_insertEntry mem with mem | mem
        · exact mem ▸ Std.lt_of_le_of_ne (Std.not_lt.1 notLess) (Ne.symm differs)
        · exact above entry mem

/-- A map from names to values. -/
structure NameMap (α : Type) where
  entries : List (String × α)
  increasing : entries.Pairwise fun a b => a.1 < b.1

namespace NameMap

variable {α β : Type}

/-- The map without entries. -/
def empty : NameMap α := ⟨[], List.Pairwise.nil⟩

instance : Inhabited (NameMap α) := ⟨empty⟩

@[ext] theorem ext {a b : NameMap α} (h : a.entries = b.entries) : a = b := by
  cases a
  cases b
  cases h
  rfl

/-- The map with one more entry, which replaces an entry of the same name. -/
def insert (map : NameMap α) (name : String) (value : α) : NameMap α :=
  ⟨insertEntry name value map.entries, pairwise_insertEntry name value map.increasing⟩

/-- The value of a name. -/
def find? (map : NameMap α) (name : String) : Option α := map.entries.lookup name

/-- Whether a name has a value. -/
def contains (map : NameMap α) (name : String) : Bool := (map.find? name).isSome

/-- The names in increasing order. -/
def names (map : NameMap α) : List String := map.entries.map (·.1)

/-- The values in the order of their names. -/
def values (map : NameMap α) : List α := map.entries.map (·.2)

/-- The number of entries. -/
def size (map : NameMap α) : Nat := map.entries.length

/-- Whether there is no entry. -/
def isEmpty (map : NameMap α) : Bool := map.entries.isEmpty

/-- The map with all entries of another one added; the other one wins where both have a name. -/
def union (map other : NameMap α) : NameMap α :=
  other.entries.foldl (fun all (name, value) => all.insert name value) map

/-- The map with another value for each name. -/
def mapValues (f : α → β) (map : NameMap α) : NameMap β :=
  ⟨map.entries.map fun entry => (entry.1, f entry.2), List.pairwise_map.2 map.increasing⟩

/-- The map with these entries; of the entries of one name the last one counts. -/
def ofList (entries : List (String × α)) : NameMap α :=
  entries.foldl (fun all (name, value) => all.insert name value) empty

end NameMap

/-- A set of names. -/
abbrev NameSet : Type := NameMap Unit

namespace NameSet

/-- The set with one more name. -/
def add (set : NameSet) (name : String) : NameSet := set.insert name ()

/-- The set with these names added. -/
def addAll (set : NameSet) (names : List String) : NameSet := names.foldl add set

/-- The set of these names. -/
def ofList (names : List String) : NameSet := addAll NameMap.empty names

end NameSet

end Prebake
