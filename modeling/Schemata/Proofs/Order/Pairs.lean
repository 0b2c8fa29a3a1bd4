import Schemata.Proofs.Order.Typing
import Schemata.Proofs.Relation.Partition

set_option autoImplicit false

namespace Schemata

variable {order : Model → List Ident} {schema other : Schema}

def Candidate.reorder (order : Model → List Ident) (candidate : Candidate) : Candidate :=
  { candidate with
    model := candidate.model.reorder order, target := candidate.target.reorder order }

namespace Candidate

variable (candidate : Candidate)

@[simp] theorem model_reorder : (candidate.reorder order).model = candidate.model.reorder order :=
  rfl

@[simp] theorem field_reorder : (candidate.reorder order).field = candidate.field := rfl

@[simp] theorem target_reorder :
    (candidate.reorder order).target = candidate.target.reorder order := rfl

@[simp] theorem key_reorder : (candidate.reorder order).key = candidate.key := rfl

theorem reorder_bases : reorder Model.bases = id := rfl

end Candidate

namespace Relation

variable (reordered : Schema.Reordered order schema other)
include reordered

theorem target?_reorder (visible : VisibleField) :
    target? other visible = (target? schema visible).map (Model.reorder order) := by
  unfold target?
  rw [reordered.typeOf]
  cases visible.viaDelegate with
  | true => rfl
  | false =>
    cases schema.typeOf visible.field with
    | model target =>
      simp only [ResolvedType.reorder, Model.isAbstract_reorder,
        apply_ite (Option.map (Model.reorder order))]
      rfl
    | _ => rfl

theorem candidate?_reorder (model : Model) (visible : VisibleField) :
    candidate? other (model.reorder order) visible =
      (candidate? schema model visible).convert (Option.map (Candidate.reorder order)) := by
  have arguments (relation : Option Attribute) :
      relationArguments other relation = relationArguments schema relation := by
    unfold relationArguments
    rw [reordered.attribute?]
  simp only [candidate?, target?_reorder reordered, arguments]
  cases target? schema visible with
  | none => rfl
  | some target => rfl

theorem checkKeyTypes_reorder (owner : Candidate) (pairs : List (Ident × Ident)) :
    checkKeyTypes other (owner.reorder order) pairs = checkKeyTypes schema owner pairs := by
  induction pairs with
  | nil => rfl
  | cons pair rest ih =>
    simp only [checkKeyTypes, Candidate.model_reorder, Candidate.target_reorder, ih]
    rcases reordered.field?_cases owner.model pair.1.name with
      ⟨missing, missingToo⟩ | ⟨there, here, known, knownToo, same⟩
    · rw [missing, missingToo]
    · rcases reordered.field?_cases owner.target pair.2.name with
        ⟨missing, missingToo⟩ | ⟨there', here', found, foundToo, same'⟩
      · rw [missing, missingToo, known, knownToo]
      · simp only [known, knownToo, found, foundToo, same, same', reordered.typeOf,
          ResolvedType.sameScalar_reorder, ResolvedType.describe_reorder]

theorem checkKey_reorder (owner : Candidate) (fields references : List Ident) :
    checkKey other (owner.reorder order) fields references =
      checkKey schema owner fields references := by
  unfold checkKey
  rw [checkKeyTypes_reorder reordered]
  rfl

theorem isUniqueField_reorder (owner : Model) (fields : List Ident) :
    isUniqueField other (owner.reorder order) fields = isUniqueField schema owner fields := by
  rcases fields with _ | ⟨only, _ | _⟩
  · rfl
  · unfold isUniqueField
    rcases reordered.field?_cases owner only.name with
      ⟨missing, missingToo⟩ | ⟨there, here, known, knownToo, same⟩
    · simp only [missing, missingToo]
    · simp only [known, knownToo, Option.any_some, same]
  · rfl

theorem coversUniqueList_reorder (owner : Model) (fields : List Ident) :
    coversUniqueList other (owner.reorder order) fields = coversUniqueList schema owner fields := by
  have lists := filter_perm_of_map_perm (reordered.attributes owner.name.name)
    fun applied => applied.name.name == "@@unique" || applied.name.name == "@@id"
  unfold coversUniqueList
  refine any_eq_of_map_perm lists fun there _ here _ same => ?_
  rw [same]

theorem checkOneToOne_reorder (owner candidate : Candidate) (fields : List Ident) :
    checkOneToOne other (owner.reorder order) (candidate.reorder order) fields =
      checkOneToOne schema owner candidate fields := by
  simp only [checkOneToOne, Candidate.model_reorder, isUniqueField_reorder reordered,
    coversUniqueList_reorder reordered, Candidate.field_reorder, Model.name_reorder]

theorem ownedEdge_reorder (first second : Candidate) (side : Side) (fields references : List Ident) :
    ownedEdge other (first.reorder order) (second.reorder order) side fields references =
      ownedEdge schema first second side fields references := by
  have owner : (if side = .first then first.reorder order else second.reorder order) =
      (if side = .first then first else second).reorder order :=
    (apply_ite (Candidate.reorder order) _ _ _).symm
  have opposite : (if side = .first then second.reorder order else first.reorder order) =
      (if side = .first then second else first).reorder order :=
    (apply_ite (Candidate.reorder order) _ _ _).symm
  simp only [ownedEdge, owner, opposite, checkKey_reorder reordered,
    checkOneToOne_reorder reordered, Candidate.field_reorder]
  rfl

omit reordered in
theorem keylessEdge_reorder (first second : Candidate) :
    keylessEdge (first.reorder order) (second.reorder order) = keylessEdge first second := by
  have isList (candidate : Candidate) :
      (candidate.reorder order).field.type.isList = candidate.field.type.isList := rfl
  rw [keylessEdge, isList, isList, keylessEdge]
  cases first.field.type.isList <;> cases second.field.type.isList <;> rfl

omit reordered in
theorem checkAmbiguous_reorder (side : List Candidate) :
    checkAmbiguous (side.map (Candidate.reorder order)) = checkAmbiguous side := by
  rcases side with _ | ⟨first, _ | ⟨second, rest⟩⟩ <;> simp [checkAmbiguous, Function.comp_def]

theorem pairEdge_reorder (first second : Candidate) :
    pairEdge other (first.reorder order) (second.reorder order) =
      pairEdge schema first second := by
  simp only [pairEdge, Candidate.key_reorder, ownedEdge_reorder reordered, keylessEdge_reorder]
  cases first.key <;> cases second.key <;> rfl

theorem selfEdge_reorder (members : List Candidate) :
    selfEdge other (members.map (Candidate.reorder order)) = selfEdge schema members := by
  rcases members with _ | ⟨first, _ | ⟨second, _ | ⟨third, rest⟩⟩⟩
  · rfl
  · rfl
  · exact pairEdge_reorder reordered first second
  · exact congrArg (Checked.mk none) (checkAmbiguous_reorder (first :: second :: third :: rest))

theorem crossEdge_reorder (left right : List Candidate) :
    crossEdge other (left.map (Candidate.reorder order)) (right.map (Candidate.reorder order)) =
      crossEdge schema left right := by
  have ambiguous : checkAmbiguous (left.map (Candidate.reorder order)) ++
      checkAmbiguous (right.map (Candidate.reorder order)) =
        checkAmbiguous left ++ checkAmbiguous right := by
    rw [checkAmbiguous_reorder, checkAmbiguous_reorder]
  rcases left with _ | ⟨first, _ | ⟨another, rest⟩⟩ <;>
    rcases right with _ | ⟨second, _ | ⟨another', rest'⟩⟩
  case cons.nil.cons.nil => exact pairEdge_reorder reordered first second
  case cons.nil.nil => rfl
  case nil.cons.nil => rfl
  all_goals exact congrArg (Checked.mk none) ambiguous

end Relation

end Schemata
