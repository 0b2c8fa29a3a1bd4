import Mathlib.Data.List.Perm.Basic
import Schemata.Policy.Operation
import Schemata.Proofs.Result

set_option autoImplicit false

namespace Schemata.Operation

theorem splitCommas_eq_splitOn (text : List Char) : splitCommas text = text.splitOn ',' := by
  induction text with
  | nil => rfl
  | cons char rest ih =>
    have some : splitCommas rest ≠ [] := by
      rw [ih]
      exact List.splitOnP_ne_nil _ _
    rw [List.splitOn, List.splitOnP_cons_eq_if_modifyHead, ← List.splitOn, ← ih, splitCommas]
    by_cases comma : char = ','
    next => simp [comma]
    next =>
      cases known : splitCommas rest with
      | nil => exact absurd known some
      | cons first others => simp [comma]

def words (text : String) : List String :=
  (text.toList.splitOn ',').map fun word => String.ofList (trimBlanks word)

def NamedBy (fieldLevel : Bool) (word : String) (operation : Operation) : Prop :=
  word = operation.name ∨
    word = "all" ∧ (fieldLevel = true → operation.appliesToFields = true)

structure ListedBy (fieldLevel : Bool) (text : String) (operations : List Operation) : Prop where
  mem_iff : ∀ operation,
    operation ∈ operations ↔ ∃ word ∈ words text, operation.NamedBy fieldLevel word
  sorted : operations.Sublist all
  nonempty : operations ≠ []
  ofFields : fieldLevel = true → ∀ operation ∈ operations, operation.appliesToFields = true

variable {fieldLevel : Bool}

theorem ListedBy.unique {text : String} {operations others : List Operation}
    (listed : ListedBy fieldLevel text operations) (too : ListedBy fieldLevel text others) :
    operations = others := by
  have distinct : all.Nodup := by decide
  refine (distinct.perm_iff_eq_of_sublist listed.sorted too.sorted).1 ?_
  refine (List.perm_ext_iff_of_nodup (listed.sorted.nodup distinct)
    (too.sorted.nodup distinct)).2 fun operation => ?_
  rw [listed.mem_iff, too.mem_iff]

theorem ofWord?_eq_some {word : String} {operations : List Operation}
    (known : ofWord? fieldLevel word = some operations) :
    (∀ operation, operation ∈ operations ↔ operation.NamedBy fieldLevel word) ∧
      operations ≠ [] ∧
      (fieldLevel = true → ∀ operation ∈ operations, operation.appliesToFields = true) := by
  unfold ofWord? at known
  simp only at known
  split at known
  next same =>
    cases known
    subst same
    cases fieldLevel
    · refine ⟨fun operation => ?_, by decide, nofun⟩
      cases operation <;> simp [NamedBy, all]
    · refine ⟨fun operation => ?_, by decide, fun _ => by decide⟩
      cases operation <;> simp [NamedBy, all, appliesToFields, name]
  next notAll =>
    obtain ⟨operation, named, within⟩ := Option.bind_eq_some_iff.1 known
    have spelled : operation.name = word := by simpa using List.find?_some named
    split at within
    next member =>
      cases within
      refine ⟨fun other => ?_, by simp, fun onField => ?_⟩
      · have same : word = other.name ↔ other = operation := by
          subst spelled
          cases operation <;> cases other <;> decide
        simp [NamedBy, notAll, same]
      · subst onField
        simpa using (List.mem_filter.1 member).2
    next => cases within

theorem gather_eq_ok (texts : List (List Char)) : ∀ operations : List Operation,
    gather fieldLevel texts = .ok operations →
      (∀ operation, operation ∈ operations ↔
        ∃ text ∈ texts, operation.NamedBy fieldLevel (String.ofList (trimBlanks text))) ∧
      (texts ≠ [] → operations ≠ []) ∧
      (fieldLevel = true → ∀ operation ∈ operations, operation.appliesToFields = true) := by
  induction texts with
  | nil =>
    intro operations gathered
    cases gathered
    simp
  | cons text rest ih =>
    intro operations gathered
    simp only [gather] at gathered
    split at gathered
    next => cases gathered
    next here known =>
      obtain ⟨others, behind, rfl⟩ := Except.map_eq_ok.1 gathered
      obtain ⟨named, some, fits⟩ := ofWord?_eq_some known
      obtain ⟨othersNamed, _, othersFit⟩ := ih others behind
      refine ⟨fun operation => ?_, fun _ => by simp [some], fun onField => ?_⟩
      · simp [named, othersNamed]
      · exact List.forall_mem_append.2 ⟨fits onField, othersFit onField⟩

theorem listedBy_of_readList {text : String} {operations : List Operation}
    (read : readList fieldLevel text = .ok operations) : ListedBy fieldLevel text operations := by
  obtain ⟨gathered, known, rfl⟩ := Except.map_eq_ok.1 read
  obtain ⟨named, some, fits⟩ := gather_eq_ok _ gathered known
  -- The operations are put in order by filtering the list of all of them.
  have complete (operation : Operation) :
      operation ∈ all.filter (fun operation => operation ∈ gathered) ↔ operation ∈ gathered := by
    rw [List.mem_filter, decide_eq_true_iff, and_iff_right_iff_imp]
    exact fun _ => by cases operation <;> decide
  refine ⟨fun operation => ?_, List.filter_sublist, fun none => ?_,
    fun onField operation found => ?_⟩
  · rw [complete, named, words, ← splitCommas_eq_splitOn]
    constructor
    · rintro ⟨word, found, namedBy⟩
      exact ⟨_, List.mem_map_of_mem found, namedBy⟩
    · rintro ⟨word, found, namedBy⟩
      obtain ⟨text, listed, rfl⟩ := List.mem_map.1 found
      exact ⟨text, listed, namedBy⟩
  · -- Even an empty text has a word, and every word that is read names an operation.
    obtain ⟨first, found⟩ := List.exists_mem_of_ne_nil gathered (some (by
      rw [splitCommas_eq_splitOn]
      exact List.splitOnP_ne_nil _ _))
    have listed := (complete first).2 found
    rw [none] at listed
    cases listed
  · exact fits onField operation ((complete operation).1 found)

end Schemata.Operation
