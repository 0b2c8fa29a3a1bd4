import Schemata.Proofs.Relation.Candidates

set_option autoImplicit false

namespace Schemata

/-- The owner is no list, and it alone declares the key that the edge has. -/
structure RelationEdge.OwnedBy (schema : Schema) (edge : RelationEdge) (owner other : Field) :
    Prop where
  single : owner.type.isList = false
  fields : schema.relationFields? owner "fields" = some edge.fields
  references : schema.relationFields? owner "references" = some edge.references
  alone : schema.DeclaresNoKey other

structure RelationEdge.Keyed (schema : Schema) (edge : RelationEdge) (field opposite : Field) :
    Prop where
  manyToMany : edge.cardinality = .manyToMany ↔
    field.type.isList = true ∧ opposite.type.isList = true
  oneToMany : edge.cardinality = .oneToMany ↔ field.type.isList ≠ opposite.type.isList
  oneToOne : edge.cardinality = .oneToOne ↔
    field.type.isList = false ∧ opposite.type.isList = false
  unowned : edge.owner = none ↔ edge.cardinality = .manyToMany
  keyless : edge.owner = none → edge.fields = [] ∧ edge.references = [] ∧
    schema.DeclaresNoKey field ∧ schema.DeclaresNoKey opposite
  first : edge.owner = some .first → edge.OwnedBy schema field opposite
  second : edge.owner = some .second → edge.OwnedBy schema opposite field

def RelationEnd.ofField (model : Model) (field : Field) : RelationEnd :=
  ⟨model.name.name, field.name.name, field.type.isList, field.type.isOptional⟩

structure RelationEdge.Joins (schema : Schema) (edge : RelationEdge) (own other : Model)
    (field opposite : Field) : Prop where
  isField : schema.IsRelationField own field other
  isOpposite : schema.IsRelationField other opposite own
  different : (own.name.name, field.name.name) ≠ (other.name.name, opposite.name.name)
  first : edge.first = .ofField own field
  second : edge.second = .ofField other opposite
  name : schema.relationName? field = edge.name
  oppositeName : schema.relationName? opposite = edge.name
  keyed : edge.Keyed schema field opposite

def RelationEdge.group (edge : RelationEdge) : Candidate.Key :=
  .ofPair edge.first.model edge.second.model edge.name

namespace Relation

variable {schema : Schema} {first second : Candidate} {edge : RelationEdge}

structure MadeOf (schema : Schema) (edge : RelationEdge) (left right : Candidate) : Prop where
  first : edge.first = left.toEnd
  second : edge.second = right.toEnd
  name : edge.name = left.name
  keyed : edge.Keyed schema left.field right.field

/-- A check that gives nothing says why. -/
def Explained {α : Type} (result : Checked (Option α)) : Prop :=
  result.value = none → result.diagnostics ≠ []

theorem explained_reject {α : Type} (span : Span) (issue : RelationIssue) :
    Explained (reject span issue : Checked (Option α)) :=
  fun _ => List.cons_ne_nil _ _

section

variable {owner other : Candidate} {side : Side} {fields references : List Ident}

theorem value_ownedEdge (isOwner : (if side = .first then first else second) = owner)
    (isOther : (if side = .first then second else first) = other) :
    (ownedEdge schema first second side fields references).value =
      if owner.field.type.isList then none
      else some ⟨first.name, first.toEnd, second.toEnd,
        if other.field.type.isList then .oneToMany else .oneToOne, some side,
        fields.map Ident.name, references.map Ident.name⟩ := by
  unfold ownedEdge
  rw [isOwner, isOther]
  by_cases isList : owner.field.type.isList = true
  next =>
    simp only [isList, if_true]
    rfl
  next =>
    rw [if_neg isList, if_neg isList, Checked.value_bind]
    -- What the checks of the key report does not change the edge.
    cases (checkKey schema owner fields references).value <;> split <;> rfl

theorem explained_ownedEdge :
    Explained (ownedEdge schema first second side fields references) := by
  intro none
  rw [value_ownedEdge rfl rfl] at none
  unfold ownedEdge
  by_cases isList : (if side = .first then first else second).field.type.isList = true
  next =>
    simp only [isList, if_true]
    exact List.cons_ne_nil _ _
  next => simp [isList] at none

theorem ownedBy_of_ownedEdge (owner other : Candidate)
    (isOwner : (if side = .first then first else second) = owner)
    (isOther : (if side = .first then second else first) = other)
    (states : (ForeignKey.complete fields references).StatedBy schema owner.field)
    (absent : ForeignKey.absent.StatedBy schema other.field)
    (made : (ownedEdge schema first second side fields references).value = some edge) :
    edge.first = first.toEnd ∧ edge.second = second.toEnd ∧ edge.name = first.name ∧
      edge.owner = some side ∧ edge.OwnedBy schema owner.field other.field ∧
      edge.cardinality = if other.field.type.isList then .oneToMany else .oneToOne := by
  rw [value_ownedEdge isOwner isOther] at made
  by_cases isList : owner.field.type.isList = true
  next => simp [isList] at made
  next =>
    rw [if_neg isList] at made
    cases Option.some.inj made
    exact ⟨rfl, rfl, rfl, rfl, ⟨by simpa using isList, states.1, states.2, absent⟩, rfl⟩

end

theorem explained_keylessEdge : Explained (keylessEdge first second) := by
  unfold keylessEdge
  split
  next =>
    intro none
    cases none
  next => exact explained_reject _ _

theorem explained_pairEdge (firstKey : first.key.isIncomplete = false)
    (secondKey : second.key.isIncomplete = false) : Explained (pairEdge schema first second) := by
  unfold pairEdge
  split
  next incomplete =>
    rw [incomplete] at firstKey
    cases firstKey
  next incomplete _ =>
    rw [incomplete] at secondKey
    cases secondKey
  next => exact explained_reject _ _
  next => exact explained_keylessEdge
  next => exact explained_ownedEdge
  next => exact explained_ownedEdge

theorem madeOf_of_keylessEdge (absent : schema.DeclaresNoKey first.field)
    (absentToo : schema.DeclaresNoKey second.field)
    (made : (keylessEdge first second).value = some edge) : MadeOf schema edge first second := by
  unfold keylessEdge at made
  split at made
  next lists =>
    rw [Bool.and_eq_true] at lists
    cases Option.some.inj made
    refine ⟨rfl, rfl, rfl, ?_⟩
    constructor <;> simp [lists, absent, absentToo]
  next => cases made

theorem madeOf_of_pairEdge (firstKey : first.key.StatedBy schema first.field)
    (secondKey : second.key.StatedBy schema second.field)
    (made : (pairEdge schema first second).value = some edge) : MadeOf schema edge first second := by
  unfold pairEdge at made
  split at made
  next => cases made
  next => cases made
  next => cases made
  next absent absentToo =>
    rw [absent] at firstKey
    rw [absentToo] at secondKey
    exact madeOf_of_keylessEdge firstKey secondKey made
  next fields references owns absent =>
    rw [owns] at firstKey
    rw [absent] at secondKey
    rcases ownedBy_of_ownedEdge first second rfl rfl firstKey secondKey made with
      ⟨isFirst, isSecond, named, isOwner, owned, cardinality⟩
    refine ⟨isFirst, isSecond, named, ?_⟩
    cases many : second.field.type.isList <;>
      constructor <;> simp [isOwner, owned, owned.single, cardinality, many]
  next fields references absent owns =>
    rw [absent] at firstKey
    rw [owns] at secondKey
    rcases ownedBy_of_ownedEdge second first rfl rfl secondKey firstKey made with
      ⟨isFirst, isSecond, named, isOwner, owned, cardinality⟩
    refine ⟨isFirst, isSecond, named, ?_⟩
    cases many : first.field.type.isList <;>
      constructor <;> simp [isOwner, owned, owned.single, cardinality, many]

end Relation

namespace Candidate

variable {first second : Candidate} {key : Key}

theorem sides_of_groupKey {candidate : Candidate} (grouped : candidate.groupKey = key) :
    candidate.name = key.name ∧
      ((candidate.model.name.name = key.low ∧ candidate.target.name.name = key.high) ∨
        (candidate.model.name.name = key.high ∧ candidate.target.name.name = key.low)) := by
  subst grouped
  unfold groupKey
  dsimp only
  split
  next => exact ⟨rfl, .inr ⟨rfl, rfl⟩⟩
  next => exact ⟨rfl, .inl ⟨rfl, rfl⟩⟩

structure Opposite (key : Key) (first second : Candidate) : Prop where
  grouped : first.groupKey = key
  oppositeGrouped : second.groupKey = key
  target : first.target.name.name = second.model.name.name
  oppositeTarget : second.target.name.name = first.model.name.name

theorem opposite_of_groupKey (grouped : first.groupKey = key) (groupedToo : second.groupKey = key)
    (apart : key.low = key.high ∨ first.model.name.name ≠ second.model.name.name) :
    Opposite key first second := by
  have sides := (sides_of_groupKey grouped).2
  have others := (sides_of_groupKey groupedToo).2
  refine ⟨grouped, groupedToo, ?_, ?_⟩ <;> grind

end Candidate

namespace Relation

variable {schema : Schema} {key : Candidate.Key} {members : List Candidate}

theorem pair_of_groupEdge {edge : RelationEdge}
    (grouped : ∀ member ∈ members, member.groupKey = key)
    (made : (groupEdge schema key members).value = some edge) :
    ∃ first second, members.Perm [first, second] ∧ Candidate.Opposite key first second ∧
      groupEdge schema key members = pairEdge schema first second := by
  unfold groupEdge at made ⊢
  split at made
  next same =>
    rw [if_pos same]
    unfold selfEdge at made ⊢
    split at made
    next => cases made
    next first second =>
      refine ⟨first, second, .refl _, ?_, rfl⟩
      exact Candidate.opposite_of_groupKey (grouped first (by simp)) (grouped second (by simp))
        (.inl same)
    next => cases made
  next different =>
    rw [if_neg different]
    unfold crossEdge at made
    split at made
    next first second onLeft onRight =>
      -- One candidate on either side of the split are all that there are.
      have split : members.Perm [first, second] := by
        have parted := List.filter_append_perm
          (fun candidate => candidate.model.name.name == key.low) members
        rw [onLeft] at parted
        exact (onRight ▸ parted).symm
      have left := List.mem_filter.1 (onLeft ▸ List.mem_singleton_self first)
      have right := List.mem_filter.1 (onRight ▸ List.mem_singleton_self second)
      refine ⟨first, second, split, ?_, by rw [onLeft, onRight, crossEdge]⟩
      refine Candidate.opposite_of_groupKey (grouped first left.1) (grouped second right.1) (.inr ?_)
      rw [eq_of_beq left.2]
      exact (bne_iff_ne.1 right.2).symm
    next => cases made
    next => cases made
    next => cases made

theorem checkAmbiguous_ne_nil {side : List Candidate} (crowded : 1 < side.length) :
    checkAmbiguous side ≠ [] := by
  match side, crowded with
  | first :: second :: rest, _ => exact List.cons_ne_nil _ _

theorem explained_selfEdge (some : members ≠ [])
    (complete : ∀ member ∈ members, member.key.isIncomplete = false) :
    Explained (selfEdge schema members) := by
  unfold selfEdge
  split
  next => exact explained_reject _ _
  next first second =>
    exact explained_pairEdge (complete first (by simp)) (complete second (by simp))
  next single pair =>
    refine fun _ => checkAmbiguous_ne_nil ?_
    match members with
    | [] => exact absurd rfl some
    | [only] => exact absurd rfl (single only)
    | [first, second] => exact absurd rfl (pair first second)
    | first :: second :: third :: rest => simp

theorem explained_crossEdge {left right : List Candidate} (some : left ++ right ≠ [])
    (complete : ∀ member ∈ left ++ right, member.key.isIncomplete = false) :
    Explained (crossEdge schema left right) := by
  unfold crossEdge
  split
  next first second =>
    exact explained_pairEdge (complete first (by simp)) (complete second (by simp))
  next => exact explained_reject _ _
  next => exact explained_reject _ _
  next pair onlyLeft onlyRight =>
    intro _ silent
    rw [List.append_eq_nil_iff] at silent
    match left, right with
    | [], [] => exact some rfl
    | [], [single] => exact onlyRight single rfl rfl
    | [single], [] => exact onlyLeft single rfl rfl
    | [first], [second] => exact pair first second rfl rfl
    | first :: second :: rest, _ => exact checkAmbiguous_ne_nil (by simp) silent.1
    | _, first :: second :: rest => exact checkAmbiguous_ne_nil (by simp) silent.2

theorem explained_groupEdge (some : members ≠ [])
    (complete : ∀ member ∈ members, member.key.isIncomplete = false) :
    Explained (groupEdge schema key members) := by
  unfold groupEdge
  split
  next => exact explained_selfEdge some complete
  next =>
    have parted := List.filter_append_perm
      (fun candidate => candidate.model.name.name == key.low) members
    refine explained_crossEdge (fun none => some ?_) fun member listed => ?_
    · exact (none ▸ parted).symm.eq_nil
    · exact complete member (parted.mem_iff.1 listed)

end Relation

end Schemata
