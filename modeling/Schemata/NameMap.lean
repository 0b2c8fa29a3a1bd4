set_option autoImplicit false

namespace Schemata

def insertEntry {α : Type} (name : String) (value : α) : List (String × α) → List (String × α)
  | [] => [(name, value)]
  | (name', value') :: rest =>
      if name = name' then (name, value) :: rest
      else if name < name' then (name, value) :: (name', value') :: rest
      else (name', value') :: insertEntry name value rest

def SortedEntries {α : Type} (entries : List (String × α)) : Prop :=
  entries.Pairwise fun left right => left.1 < right.1

theorem mem_insertEntry {α : Type} {name : String} {value : α} {entries : List (String × α)}
    {entry : String × α} (found : entry ∈ insertEntry name value entries) :
    entry = (name, value) ∨ entry ∈ entries := by
  induction entries with
  | nil => simpa [insertEntry] using found
  | cons first rest ih =>
      obtain ⟨name', value'⟩ := first
      unfold insertEntry at found
      split at found
      · exact (List.mem_cons.1 found).imp id (List.mem_cons_of_mem _)
      · split at found
        · exact List.mem_cons.1 found
        · rcases List.mem_cons.1 found with same | found
          · exact Or.inr (List.mem_cons.2 (Or.inl same))
          · exact (ih found).imp id (List.mem_cons_of_mem _)

theorem sortedEntries_insertEntry {α : Type} (name : String) (value : α)
    {entries : List (String × α)} (sorted : SortedEntries entries) :
    SortedEntries (insertEntry name value entries) := by
  induction entries with
  | nil => simp [insertEntry, SortedEntries]
  | cons first rest ih =>
      obtain ⟨name', value'⟩ := first
      simp only [SortedEntries, List.pairwise_cons] at sorted
      unfold insertEntry
      split
      · next same => simpa [SortedEntries, same] using sorted
      · split
        · next _ less =>
            refine List.pairwise_cons.2 ⟨fun entry found => ?_, List.pairwise_cons.2 sorted⟩
            rcases List.mem_cons.1 found with rfl | found
            · exact less
            · exact String.lt_trans less (sorted.1 entry found)
        · next different notLess =>
            refine List.pairwise_cons.2 ⟨fun entry found => ?_, ih sorted.2⟩
            rcases mem_insertEntry found with rfl | found
            · refine Decidable.byContradiction fun notGreater => different ?_
              exact String.le_antisymm (String.not_lt.1 notGreater) (String.not_lt.1 notLess)
            · exact sorted.1 entry found

structure NameMap (α : Type) where
  entries : List (String × α)
  sorted : SortedEntries entries

namespace NameMap

variable {α : Type}

def empty : NameMap α := ⟨[], List.Pairwise.nil⟩

instance : Inhabited (NameMap α) := ⟨empty⟩

instance [Repr α] : Repr (NameMap α) := ⟨fun map precedence => reprPrec map.entries precedence⟩

def insert (map : NameMap α) (name : String) (value : α) : NameMap α :=
  ⟨insertEntry name value map.entries, sortedEntries_insertEntry name value map.sorted⟩

/-- The map of some entries. The last of several entries of one name counts. -/
def ofList (entries : List (String × α)) : NameMap α :=
  entries.foldl (fun map (name, value) => map.insert name value) empty

def find? (map : NameMap α) (name : String) : Option α := map.entries.lookup name

def isEmpty (map : NameMap α) : Bool := map.entries.isEmpty

theorem ext {left right : NameMap α} (same : left.entries = right.entries) : left = right := by
  cases left; cases right; simp_all

end NameMap

end Schemata
