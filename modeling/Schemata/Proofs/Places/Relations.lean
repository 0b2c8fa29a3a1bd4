import Schemata.Proofs.Places.Attributes
import Schemata.Relation.Infer

set_option autoImplicit false

namespace Schemata

def ForeignKey.erase : ForeignKey → ForeignKey
  | .complete fields references =>
      .complete (fields.map Ident.erase) (references.map Ident.erase)
  | other => other

def Candidate.erase (candidate : Candidate) : Candidate :=
  ⟨candidate.model.erase, candidate.field.erase, candidate.target.erase, candidate.name,
    candidate.relation.map Attribute.erase, candidate.key.erase⟩

namespace Candidate

variable (candidate : Candidate)

@[simp] theorem model_erase : candidate.erase.model = candidate.model.erase := rfl

@[simp] theorem field_erase : candidate.erase.field = candidate.field.erase := rfl

@[simp] theorem target_erase : candidate.erase.target = candidate.target.erase := rfl

@[simp] theorem key_erase : candidate.erase.key = candidate.key.erase := rfl

theorem isList_erase : candidate.erase.field.type.isList = candidate.field.type.isList := rfl

@[simp] theorem groupKey_erase : candidate.erase.groupKey = candidate.groupKey := rfl

@[simp] theorem span_erase : candidate.erase.span = Span.zero := by
  unfold span erase
  cases candidate.relation <;> rfl

end Candidate

namespace Relation

@[simp] theorem erase_reject {α : Type} (span : Span) (issue : RelationIssue) :
    (reject span issue : Checked (Option α)).erase id = reject Span.zero issue := rfl

@[simp] theorem erase_reportUnless (condition : Bool) (span : Span) (issue : RelationIssue) :
    (reportUnless condition span issue).erase id = reportUnless condition Span.zero issue := by
  cases condition <;> rfl

variable (schema : Schema)

theorem relationArguments_erase (relation : Option Attribute) :
    relationArguments schema.erase (relation.map Attribute.erase) =
      (relationArguments schema relation).map Bound.erase := by
  unfold relationArguments
  rw [Schema.symbols_erase, SymbolTable.attribute?_erase]
  cases relation with
  | none => rfl
  | some applied =>
    cases schema.symbols.attribute? "@relation" with
    | none => rfl
    | some decl =>
      simp only [Option.map_some, Attribute.bind_erase, toOption_map_mapError]
      cases (applied.bind decl).toOption <;> rfl

theorem fieldIdents_erase (value : Expr) :
    fieldIdents value.erase = (fieldIdents value).map Ident.erase := by
  rw [fieldIdents, Expr.fieldItems_erase, fieldIdents, List.map_map, List.map_map]
  rfl

theorem foreignKey_erase (span : Span) (bounds : List Bound) :
    foreignKey Span.zero (bounds.map Bound.erase) =
      (foreignKey span bounds).erase ForeignKey.erase := by
  simp only [foreignKey, Bound.value?_erase]
  cases Bound.value? bounds "fields" <;> cases Bound.value? bounds "references" <;>
    simp [ForeignKey.erase, fieldIdents_erase]

theorem target?_erase (visible : VisibleField) :
    target? schema.erase visible.erase = (target? schema visible).map Model.erase := by
  unfold target?
  rw [VisibleField.viaDelegate_erase, VisibleField.field_erase, Schema.typeOf_erase]
  cases visible.viaDelegate with
  | true => rfl
  | false =>
    cases schema.typeOf visible.field with
    | model target => simp only [ResolvedType.erase, apply_ite (Option.map Model.erase)]; rfl
    | _ => rfl

theorem candidate?_erase (model : Model) (visible : VisibleField) :
    candidate? schema.erase model.erase visible.erase =
      (candidate? schema model visible).erase (Option.map Candidate.erase) := by
  simp only [candidate?, target?_erase, VisibleField.field_erase, Field.attribute?_erase,
    relationArguments_erase, Bound.value?_erase]
  cases target? schema visible with
  | none => rfl
  | some target =>
    refine Checked.erase_bind ForeignKey.erase ?_ fun key => ?_
    · rw [← foreignKey_erase]
      cases visible.field.attribute? "@relation" <;> rfl
    · cases Bound.value? (relationArguments schema (visible.field.attribute? "@relation")) "name" <;>
        simp [Candidate.erase]

theorem candidatesOf_erase (model : Model) (fields : List VisibleField) :
    candidatesOf schema.erase model.erase (fields.map VisibleField.erase) =
      (candidatesOf schema model fields).erase (List.map Candidate.erase) := by
  induction fields with
  | nil => rfl
  | cons visible rest ih =>
    refine Checked.erase_bind _ (candidate?_erase schema model visible) fun first => ?_
    refine Checked.erase_bind _ ih fun others => ?_
    cases first <;> rfl

theorem candidates_erase (models : List Model) :
    candidates schema.erase (models.map Model.erase) =
      (candidates schema models).erase (List.map Candidate.erase) := by
  induction models with
  | nil => rfl
  | cons model rest ih =>
    have behind (own : List Candidate) :
        (do
          let others ← candidates schema.erase (rest.map Model.erase)
          pure (own.map Candidate.erase ++ others)) =
          (do
            let others ← candidates schema rest
            pure (own ++ others)).erase (List.map Candidate.erase) :=
      Checked.erase_bind _ ih fun others => by simp
    rw [List.map_cons, candidates, candidates, Model.isAbstract_erase, Schema.fields_erase,
      candidatesOf_erase]
    cases model.isAbstract with
    | true => exact Checked.erase_bind (List.map Candidate.erase) rfl behind
    | false => exact Checked.erase_bind _ rfl behind

theorem checkKeyTypes_erase (owner : Candidate) (pairs : List (Ident × Ident)) :
    checkKeyTypes schema.erase owner.erase (pairs.map (Prod.map Ident.erase Ident.erase)) =
      (checkKeyTypes schema owner pairs).erase id := by
  induction pairs with
  | nil => rfl
  | cons pair rest ih =>
    simp only [List.map_cons, Prod.map, checkKeyTypes, Candidate.model_erase,
      Candidate.target_erase, Ident.name_erase, Schema.field?_erase, ih]
    cases schema.field? owner.model pair.1.name with
    | none => rfl
    | some own =>
      cases schema.field? owner.target pair.2.name with
      | none => rfl
      | some other => simp [apply_ite (Checked.erase id)]

theorem checkKey_erase (owner : Candidate) (fields references : List Ident) :
    checkKey schema.erase owner.erase (fields.map Ident.erase) (references.map Ident.erase) =
      (checkKey schema owner fields references).erase id := by
  simp only [checkKey, List.length_map, List.zip_map, checkKeyTypes_erase, Candidate.span_erase,
    apply_ite (Checked.erase id), erase_reportUnless]

theorem isUniqueField_erase (owner : Model) (fields : List Ident) :
    isUniqueField schema.erase owner.erase (fields.map Ident.erase) =
      isUniqueField schema owner fields := by
  rcases fields with _ | ⟨only, _ | _⟩
  · rfl
  · simp only [isUniqueField, List.map_cons, List.map_nil, Ident.name_erase, Schema.field?_erase]
    cases schema.field? owner only.name <;> simp
  · rfl

theorem coversUniqueList_erase (owner : Model) (fields : List Ident) :
    coversUniqueList schema.erase owner.erase (fields.map Ident.erase) =
      coversUniqueList schema owner fields := by
  simp [coversUniqueList, List.filter_map, Function.comp_def]

theorem checkOneToOne_erase (owner other : Candidate) (fields : List Ident) :
    checkOneToOne schema.erase owner.erase other.erase (fields.map Ident.erase) =
      (checkOneToOne schema owner other fields).erase id := by
  refine Checked.erase_bind id (by simp) fun _ => ?_
  cases fields with
  | nil => rfl
  | cons first rest =>
    refine Checked.erase_bind id ?_ fun _ => rfl
    have unique := isUniqueField_erase schema owner.model (first :: rest)
    have covers := coversUniqueList_erase schema owner.model (first :: rest)
    rw [List.map_cons] at unique covers
    simp [unique, covers]

theorem ownedEdge_erase (first second : Candidate) (side : Side) (fields references : List Ident) :
    ownedEdge schema.erase first.erase second.erase side (fields.map Ident.erase)
        (references.map Ident.erase) =
      (ownedEdge schema first second side fields references).erase id := by
  have owner : (if side = .first then first.erase else second.erase) =
      (if side = .first then first else second).erase := (apply_ite Candidate.erase _ _ _).symm
  have other : (if side = .first then second.erase else first.erase) =
      (if side = .first then second else first).erase := (apply_ite Candidate.erase _ _ _).symm
  have names (idents : List Ident) :
      (idents.map Ident.erase).map Ident.name = idents.map Ident.name := by
    simp [Function.comp_def]
  rw [ownedEdge, owner, other, ownedEdge, names, names]
  generalize (if side = .first then first else second) = owner
  generalize (if side = .first then second else first) = other
  rw [owner.isList_erase, other.isList_erase]
  cases owner.field.type.isList with
  | true => cases other.field.type.isList <;> rfl
  | false =>
    refine Checked.erase_bind id (checkKey_erase schema owner fields references) fun valid => ?_
    have oneToOne := checkOneToOne_erase schema owner other fields
    cases other.field.type.isList with
    | true => cases valid <;> rfl
    | false =>
      cases valid with
      | true => exact Checked.erase_bind id oneToOne fun _ => rfl
      | false => rfl

theorem keylessEdge_erase (first second : Candidate) :
    keylessEdge first.erase second.erase = (keylessEdge first second).erase id := by
  rw [keylessEdge, first.isList_erase, second.isList_erase, keylessEdge]
  cases first.field.type.isList <;> cases second.field.type.isList <;> rfl

theorem pairEdge_erase (first second : Candidate) :
    pairEdge schema.erase first.erase second.erase =
      (pairEdge schema first second).erase id := by
  simp only [pairEdge, Candidate.key_erase]
  cases first.key <;> cases second.key <;>
    simp [ForeignKey.erase, ownedEdge_erase, keylessEdge_erase]

theorem checkAmbiguous_erase (side : List Candidate) :
    checkAmbiguous (side.map Candidate.erase) = (checkAmbiguous side).map Diagnostic.erase := by
  rcases side with _ | ⟨first, _ | ⟨second, rest⟩⟩ <;> simp [checkAmbiguous, Function.comp_def]

theorem missingOpposite_erase (candidate : Candidate) :
    missingOpposite candidate.erase =
      (missingOpposite candidate).erase id := by
  simp [missingOpposite]

theorem selfEdge_erase (members : List Candidate) :
    selfEdge schema.erase (members.map Candidate.erase) = (selfEdge schema members).erase id := by
  rcases members with _ | ⟨first, _ | ⟨second, _ | ⟨third, rest⟩⟩⟩
  · rfl
  · exact missingOpposite_erase first
  · exact pairEdge_erase schema first second
  · exact congrArg (Checked.mk none) (checkAmbiguous_erase (first :: second :: third :: rest))

theorem crossEdge_erase (left right : List Candidate) :
    crossEdge schema.erase (left.map Candidate.erase) (right.map Candidate.erase) =
      (crossEdge schema left right).erase id := by
  have ambiguous : checkAmbiguous (left.map Candidate.erase) ++
      checkAmbiguous (right.map Candidate.erase) =
        (checkAmbiguous left ++ checkAmbiguous right).map Diagnostic.erase := by
    rw [checkAmbiguous_erase, checkAmbiguous_erase, List.map_append]
  rcases left with _ | ⟨first, _ | ⟨other, rest⟩⟩ <;>
    rcases right with _ | ⟨second, _ | ⟨other', rest'⟩⟩
  case cons.nil.cons.nil => exact pairEdge_erase schema first second
  case cons.nil.nil => exact missingOpposite_erase first
  case nil.cons.nil => exact missingOpposite_erase second
  all_goals exact congrArg (Checked.mk none) ambiguous

theorem groupEdge_erase (key : Candidate.Key) (members : List Candidate) :
    groupEdge schema.erase key (members.map Candidate.erase) =
      (groupEdge schema key members).erase id := by
  simp only [groupEdge, List.filter_map, Function.comp_def, Candidate.model_erase,
    Model.name_erase, Ident.name_erase, selfEdge_erase, crossEdge_erase,
    apply_ite (Checked.erase id)]

theorem groupEdges_erase (all : List Candidate) (keys : List Candidate.Key) :
    groupEdges schema.erase (all.map Candidate.erase) keys =
      (groupEdges schema all keys).erase id := by
  induction keys with
  | nil => rfl
  | cons key rest ih =>
    refine Checked.erase_bind id ?_ fun edge => ?_
    · rw [← groupEdge_erase]
      simp [List.filter_map, Function.comp_def]
    · exact Checked.erase_bind id ih fun others => by simp

end Relation

theorem Schema.relations_erase (schema : Schema) :
    schema.erase.relations = schema.relations.erase id := by
  refine Checked.erase_bind (List.map Candidate.erase) ?_ fun all => ?_
  · rw [hierarchy_erase, Hierarchy.models_erase, Relation.candidates_erase]
  · rw [← Relation.groupEdges_erase]
    simp [Function.comp_def]

end Schemata
