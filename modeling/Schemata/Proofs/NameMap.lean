import Mathlib.Data.List.Nodup
import Schemata.NameMap

set_option autoImplicit false

namespace Schemata

variable {α : Type}

theorem lookup_entry (name other : String) (value : α) (rest : List (String × α)) :
    ((name, value) :: rest).lookup other =
      if other = name then some value else rest.lookup other := by
  rw [List.lookup_cons]
  by_cases same : other = name
  next => simp [same]
  next => rw [if_neg same, beq_false_of_ne same]

theorem lookup_insertEntry (name other : String) (value : α) (entries : List (String × α)) :
    (insertEntry name value entries).lookup other =
      if other = name then some value else entries.lookup other := by
  induction entries with
  | nil => exact lookup_entry name other value []
  | cons first rest ih =>
    obtain ⟨name', value'⟩ := first
    rw [insertEntry]
    by_cases here : name = name'
    next =>
      subst here
      by_cases same : other = name <;> simp [lookup_entry, same]
    next =>
      -- The entry is put before the first greater name, and is looked up past all smaller ones.
      by_cases less : name < name'
      next => simp [here, less, lookup_entry]
      next =>
        rw [if_neg here, if_neg less, lookup_entry, lookup_entry, ih]
        by_cases same : other = name'
        next =>
          subst same
          simp [Ne.symm here]
        next => simp [same]

namespace NameMap

theorem find?_insert (map : NameMap α) (name other : String) (value : α) :
    (map.insert name value).find? other = if other = name then some value else map.find? other :=
  lookup_insertEntry name other value map.entries

theorem find?_foldl (name : String) (entries : List (String × α)) : ∀ map : NameMap α,
    (entries.foldl (fun map (name, value) => map.insert name value) map).find? name =
      (entries.reverse.lookup name).or (map.find? name) := by
  induction entries with
  | nil => exact fun map => rfl
  | cons first rest ih =>
    obtain ⟨key, value⟩ := first
    intro map
    rw [List.foldl_cons, ih, find?_insert, List.reverse_cons, List.lookup_append, Option.or_assoc]
    by_cases same : name = key <;> simp [lookup_entry, same]

theorem mem_of_lookup {entries : List (String × α)} {name : String} {value : α}
    (found : entries.lookup name = some value) : (name, value) ∈ entries := by
  obtain ⟨before, behind, rfl, _⟩ := List.lookup_eq_some_iff.1 found
  exact List.mem_append_right _ List.mem_cons_self

theorem lookup_of_mem {entries : List (String × α)} (distinct : (entries.map Prod.fst).Nodup)
    {name : String} {value : α} (member : (name, value) ∈ entries) :
    entries.lookup name = some value := by
  obtain ⟨before, behind, rfl⟩ := List.append_of_mem member
  refine List.lookup_eq_some_iff.2 ⟨before, behind, rfl, fun entry found => ?_⟩
  rw [List.map_append, List.nodup_append] at distinct
  have apart := distinct.2.2 entry.1 (List.mem_map_of_mem found) name List.mem_cons_self
  simpa using Ne.symm apart

theorem lookup_eq_some_iff_mem {entries : List (String × α)}
    (distinct : (entries.map Prod.fst).Nodup) {name : String} {value : α} :
    entries.lookup name = some value ↔ (name, value) ∈ entries :=
  ⟨mem_of_lookup, lookup_of_mem distinct⟩

theorem find?_ofList (entries : List (String × α)) (name : String) :
    (ofList entries).find? name = entries.reverse.lookup name := by
  rw [ofList, find?_foldl]
  simp [find?, empty]

theorem mem_of_find?_ofList {entries : List (String × α)} {name : String} {value : α}
    (found : (ofList entries).find? name = some value) : (name, value) ∈ entries := by
  rw [find?_ofList] at found
  exact List.mem_reverse.1 (mem_of_lookup found)

theorem find?_ofList_eq_some_iff {entries : List (String × α)}
    (distinct : (entries.map Prod.fst).Nodup) {name : String} {value : α} :
    (ofList entries).find? name = some value ↔ (name, value) ∈ entries := by
  have reversed : (entries.reverse.map Prod.fst).Nodup := by
    rw [List.map_reverse]
    exact List.pairwise_reverse.2 (distinct.imp Ne.symm)
  rw [find?_ofList, lookup_eq_some_iff_mem reversed, List.mem_reverse]

theorem distinct_entries (map : NameMap α) : (map.entries.map Prod.fst).Nodup := by
  rw [List.Nodup, List.pairwise_map]
  refine map.sorted.imp fun {first second} less same => ?_
  exact String.lt_irrefl second.1 (same ▸ less)

theorem find?_eq_some_iff {map : NameMap α} {name : String} {value : α} :
    map.find? name = some value ↔ (name, value) ∈ map.entries :=
  lookup_eq_some_iff_mem map.distinct_entries

theorem ext_find? {left right : NameMap α} (same : ∀ name, left.find? name = right.find? name) :
    left = right := by
  have perm : left.entries.Perm right.entries := by
    refine (List.perm_ext_iff_of_nodup (List.Nodup.of_map _ left.distinct_entries)
      (List.Nodup.of_map _ right.distinct_entries)).2 fun entry => ?_
    obtain ⟨name, value⟩ := entry
    rw [← find?_eq_some_iff, same, find?_eq_some_iff]
  refine ext (perm.eq_of_pairwise ?_ left.sorted right.sorted)
  exact fun first second _ _ less greater => absurd (String.lt_trans less greater) (String.lt_irrefl _)

theorem ofList_perm {entries others : List (String × α)} (perm : others.Perm entries)
    (distinct : (entries.map Prod.fst).Nodup) : ofList others = ofList entries := by
  refine ext_find? fun name => Option.ext fun value => ?_
  rw [find?_ofList_eq_some_iff distinct, find?_ofList_eq_some_iff ((perm.map _).nodup_iff.2 distinct),
    perm.mem_iff]

end NameMap

end Schemata
