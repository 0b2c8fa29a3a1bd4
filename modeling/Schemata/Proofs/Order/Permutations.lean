import Mathlib.Data.List.Nodup
import Mathlib.Data.List.Perm.Subperm
import Mathlib.Logic.Equiv.Basic

set_option autoImplicit false

namespace Schemata

variable {α β γ : Type} {items others : List α}

theorem findSome?_eq_of_perm {value : α → Option β} (perm : others.Perm items)
    (single : ∀ first ∈ items, ∀ second ∈ items, (value first).isSome = true →
      (value second).isSome = true → value first = value second) :
    others.findSome? value = items.findSome? value := by
  cases found : items.findSome? value with
  | none =>
    rw [List.findSome?_eq_none_iff] at found ⊢
    exact fun item member => found item (perm.mem_iff.1 member)
  | some here =>
    obtain ⟨first, member, known⟩ := List.exists_of_findSome?_eq_some found
    have some : (others.findSome? value).isSome = true := by
      rw [List.isSome_findSome?, List.any_eq_true]
      exact ⟨first, perm.mem_iff.2 member, by rw [known]; rfl⟩
    obtain ⟨there, foundToo⟩ := Option.isSome_iff_exists.1 some
    obtain ⟨second, memberToo, knownToo⟩ := List.exists_of_findSome?_eq_some foundToo
    have same := single first member second (perm.mem_iff.1 memberToo) (by rw [known]; rfl)
      (by rw [knownToo]; rfl)
    rw [foundToo, ← knownToo, ← same, known]

theorem find?_eq_of_perm {test : α → Bool} (perm : others.Perm items)
    (single : ∀ first ∈ items, ∀ second ∈ items, test first = true → test second = true →
      first = second) : others.find? test = items.find? test := by
  have asFindSome (list : List α) :
      list.find? test = list.findSome? fun item => if test item then some item else none := by
    induction list with
    | nil => rfl
    | cons first rest ih =>
      rw [List.find?_cons, List.findSome?_cons, ih]
      cases test first <;> rfl
  rw [asFindSome, asFindSome]
  refine findSome?_eq_of_perm perm fun first member second memberToo isFirst isSecond => ?_
  rw [single first member second memberToo (by simpa using isFirst) (by simpa using isSecond)]

theorem exists_place_of_perm (perm : items.Perm others) :
    ∃ place : Nat → Nat, Function.Injective place ∧
      ∀ index, others[place index]? = items[index]? := by
  induction perm with
  | nil => exact ⟨id, Function.injective_id, fun _ => rfl⟩
  | cons first _ ih =>
    obtain ⟨place, injective, same⟩ := ih
    refine ⟨Nat.rec 0 fun index _ => place index + 1, ?_, ?_⟩
    · rintro (_ | left) (_ | right) equal
      · rfl
      · simp at equal
      · simp at equal
      · exact congrArg Nat.succ (injective (Nat.succ.inj equal))
    · rintro (_ | index)
      · rfl
      · simpa using same index
  | swap first second rest =>
    refine ⟨Equiv.swap 0 1, Equiv.injective _, ?_⟩
    rintro (_ | _ | index)
    · rfl
    · rfl
    · rw [Equiv.swap_apply_of_ne_of_ne (by simp) (by simp)]
      rfl
  | trans _ _ first second =>
    obtain ⟨place, injective, same⟩ := first
    obtain ⟨next, injectiveToo, sameToo⟩ := second
    exact ⟨next ∘ place, injectiveToo.comp injective,
      fun index => (sameToo (place index)).trans (same index)⟩

section

variable {key : α → γ} (perm : (others.map key).Perm (items.map key))
include perm

theorem filter_perm_of_map_perm (test : γ → Bool) :
    ((others.filter fun other => test (key other)).map key).Perm
      ((items.filter fun item => test (key item)).map key) := by
  have picked := perm.filter test
  rwa [List.filter_map, List.filter_map] at picked

theorem any_eq_of_map_perm {left right : α → Bool}
    (same : ∀ other ∈ others, ∀ item ∈ items, key other = key item → left other = right item) :
    others.any left = items.any right := by
  rw [Bool.eq_iff_iff, List.any_eq_true, List.any_eq_true]
  constructor
  · rintro ⟨other, member, isTrue⟩
    obtain ⟨item, memberToo, equal⟩ := List.mem_map.1 (perm.mem_iff.1 (List.mem_map_of_mem member))
    exact ⟨item, memberToo, same other member item memberToo equal.symm ▸ isTrue⟩
  · rintro ⟨item, member, isTrue⟩
    obtain ⟨other, memberToo, equal⟩ := List.mem_map.1 (perm.mem_iff.2 (List.mem_map_of_mem member))
    exact ⟨other, memberToo, (same other memberToo item member equal).trans isTrue⟩

theorem flatMap_perm_of_map_perm {left right : α → List β}
    (same : ∀ other ∈ others, ∀ item ∈ items, key other = key item → left other = right item) :
    (others.flatMap left).Perm (items.flatMap right) := by
  have reordered : Relation.Comp (· = List.map key ·) (List.Perm · ·) (others.map key) items := by
    rw [List.eq_map_comp_perm]
    exact perm
  obtain ⟨between, keys, permuted⟩ := reordered
  refine List.Perm.trans ?_ (permuted.flatMap_right right)
  have members : ∀ item ∈ between, item ∈ items := fun item => permuted.mem_iff.1
  clear perm permuted
  -- The two lists have the same keys in the same order.
  induction others generalizing between with
  | nil =>
    rw [List.map_nil, eq_comm, List.map_eq_nil_iff] at keys
    subst keys
    exact .refl _
  | cons other rest ih =>
    cases between with
    | nil => cases keys
    | cons item between =>
      rw [List.map_cons, List.map_cons, List.cons.injEq] at keys
      rw [List.forall_mem_cons] at members
      rw [List.flatMap_cons, List.flatMap_cons, same other List.mem_cons_self item members.1 keys.1]
      exact List.Perm.append_left _ (ih (fun next found => same next (List.mem_cons_of_mem _ found))
        between keys.2 members.2)

theorem exists_blocks_of_turned {left right : α → List β} {rest : List β} {first second : β}
    (once : (items.map key).Nodup)
    (same : ∀ other ∈ others, ∀ item ∈ items, key other = key item → left other = right item)
    (here : items.flatMap right ++ rest = [first, second])
    (there : others.flatMap left ++ rest = [second, first]) (differ : first ≠ second) :
    ∃ one ∈ items, ∃ another ∈ items,
      key one ≠ key another ∧ first ∈ right one ∧ second ∈ right another := by
  have none : rest = [] := by
    by_contra some
    have last := congrArg List.getLast? here
    have lastToo := congrArg List.getLast? there
    rw [List.getLast?_append_of_ne_nil _ some] at last lastToo
    exact differ (by simpa using lastToo.symm.trans last)
  rw [none, List.append_nil] at here there
  obtain ⟨one, isOne, isFirst⟩ := List.mem_flatMap.1 (here.symm ▸ List.mem_cons_self)
  obtain ⟨another, isAnother, isSecond⟩ := List.mem_flatMap.1
    (here.symm ▸ List.mem_cons_of_mem first (List.mem_singleton_self second))
  refine ⟨one, isOne, another, isAnother, fun equal => ?_, isFirst, isSecond⟩
  -- A block of both items has them in the same order in either list.
  cases List.inj_on_of_nodup_map once isOne isAnother equal
  obtain ⟨other, isOther, otherKey⟩ :=
    List.mem_map.1 (perm.mem_iff.2 (List.mem_map_of_mem isOne))
  have both : 2 ≤ (right one).length := by
    have pair : [first, second].Nodup := by simpa using differ
    exact (pair.subperm (by simp [isFirst, isSecond])).length_le
  have part {list : List α} (block : α → List β) {item : α} (member : item ∈ list) :
      (block item).Sublist (list.flatMap block) :=
    List.sublist_flatten_of_mem (List.mem_map_of_mem member)
  have whole : right one = [first, second] := (here ▸ part right isOne).eq_of_length_le both
  have equal := same other isOther one isOne otherKey
  have turned : left other = [second, first] :=
    (there ▸ part left isOther).eq_of_length_le (equal ▸ both)
  rw [equal, whole] at turned
  exact differ (List.cons.inj turned).1

end

end Schemata
