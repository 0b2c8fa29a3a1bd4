import Schemata.Proofs.Policy.Rules
import Schemata.Proofs.Schema.Members
import Schemata.Relation.Infer

set_option autoImplicit false

namespace Schemata

def Schema.relationArgument? (schema : Schema) (field : Field) (param : String) : Option Expr :=
  (field.attribute? "@relation").bind fun applied => schema.argument? applied param

def Schema.relationName? (schema : Schema) (field : Field) : Option String :=
  (schema.relationArgument? field "name").bind Expr.string?

def Schema.relationFields? (schema : Schema) (field : Field) (param : String) :
    Option (List String) :=
  (schema.relationArgument? field param).map fun value =>
    value.fieldItems.map fun item => item.field.name

/-- A concrete model sees the field, not through a delegate, and it is of a concrete model. -/
structure Schema.IsRelationField (schema : Schema) (model : Model) (field : Field)
    (target : Model) : Prop where
  member : model ∈ schema.hierarchy.models
  concrete : model.isAbstract = false
  visible : ∃ visible ∈ schema.fields model, visible.field = field ∧ visible.viaDelegate = false
  type : schema.typeOf field = .model target
  targetConcrete : target.isAbstract = false

def Candidate.Key.ofPair (own other : String) (name : Option String) : Candidate.Key :=
  if other < own then ⟨other, own, name⟩ else ⟨own, other, name⟩

def Schema.relationGroup (schema : Schema) (model : Model) (field : Field) (target : Model) :
    Candidate.Key :=
  .ofPair model.name.name target.name.name (schema.relationName? field)

def ForeignKey.isIncomplete : ForeignKey → Bool
  | .incomplete => true
  | _ => false

def Schema.DeclaresNoKey (schema : Schema) (field : Field) : Prop :=
  schema.relationFields? field "fields" = none ∧ schema.relationFields? field "references" = none

def ForeignKey.StatedBy (schema : Schema) (field : Field) : ForeignKey → Prop
  | .absent => schema.DeclaresNoKey field
  | .incomplete =>
      (schema.relationFields? field "fields").isSome ≠
        (schema.relationFields? field "references").isSome
  | .complete fields references =>
      schema.relationFields? field "fields" = some (fields.map Ident.name) ∧
        schema.relationFields? field "references" = some (references.map Ident.name)

structure Candidate.Describes (schema : Schema) (model : Model) (visible : VisibleField)
    (candidate : Candidate) : Prop where
  model : candidate.model = model
  field : candidate.field = visible.field
  target : Relation.target? schema visible = some candidate.target
  name : candidate.name = schema.relationName? candidate.field
  key : candidate.key.StatedBy schema candidate.field

namespace Relation

variable {schema : Schema} {model : Model} {visible : VisibleField}

theorem target?_eq_some {target : Model} :
    target? schema visible = some target ↔ visible.viaDelegate = false ∧
      schema.typeOf visible.field = .model target ∧ target.isAbstract = false := by
  constructor
  · intro found
    unfold target? at found
    split at found
    next => cases found
    next direct =>
      split at found
      next other isModel =>
        split at found
        next => cases found
        next concrete =>
          cases found
          exact ⟨by simpa using direct, isModel, by simpa using concrete⟩
      next => cases found
  · rintro ⟨direct, isModel, concrete⟩
    simp [target?, direct, isModel, concrete]

theorem value?_relationArguments (field : Field) (param : String) :
    Bound.value? (relationArguments schema (field.attribute? "@relation")) param =
      schema.relationArgument? field param := by
  unfold relationArguments Schema.relationArgument?
  cases found : field.attribute? "@relation" with
  | none => rfl
  | some applied =>
    have named : applied.name.name = "@relation" := by simpa using List.find?_some found
    simp only [Schema.argument?, named, Option.bind_some]
    cases schema.symbols.attribute? "@relation" with
    | none => rfl
    | some decl =>
      simp only [Option.bind_eq_bind, Option.bind_some]
      cases (applied.bind decl).toOption <;> rfl

theorem foreignKey_statedBy (span : Span) (field : Field) :
    let key := foreignKey span (relationArguments schema (field.attribute? "@relation"))
    key.value.StatedBy schema field ∧
      key.diagnostics.length = if key.value.isIncomplete then 1 else 0 := by
  simp only [foreignKey, value?_relationArguments]
  split
  next noFields noReferences =>
    refine ⟨⟨?_, ?_⟩, rfl⟩
    · rw [Schema.relationFields?, noFields, Option.map_none]
    · rw [Schema.relationFields?, noReferences, Option.map_none]
  next fields references givesFields givesReferences =>
    refine ⟨⟨?_, ?_⟩, rfl⟩
    · simp [Schema.relationFields?, givesFields, fieldIdents, Function.comp_def]
    · simp [Schema.relationFields?, givesReferences, fieldIdents, Function.comp_def]
  next none both =>
    refine ⟨?_, rfl⟩
    simp only [ForeignKey.StatedBy, Schema.relationFields?, Option.isSome_map]
    cases givesFields : schema.relationArgument? field "fields" with
    | none =>
      cases givesReferences : schema.relationArgument? field "references" with
      | none => exact absurd givesReferences (none givesFields)
      | some => simp
    | some =>
      cases givesReferences : schema.relationArgument? field "references" with
      | none => simp
      | some => exact absurd givesReferences (both _ _ givesFields)

theorem candidate?_of_target? (model : Model) {target : Model}
    (found : target? schema visible = some target) :
    ∃ candidate, (candidate? schema model visible).value = some candidate ∧
      candidate.Describes schema model visible ∧
      (candidate? schema model visible).diagnostics.length =
        if candidate.key.isIncomplete then 1 else 0 := by
  unfold candidate?
  rw [found]
  refine ⟨_, rfl, ⟨rfl, rfl, found, ?_, ?_⟩, ?_⟩
  · simp only [value?_relationArguments]
    rfl
  · exact (foreignKey_statedBy _ _).1
  · simp only [Checked.diagnostics_bind, Checked.diagnostics_pure, List.append_nil]
    exact (foreignKey_statedBy _ _).2

theorem candidate?_of_no_target (none : target? schema visible = none) :
    candidate? schema model visible = pure Option.none := by
  rw [candidate?, none]

theorem describes_of_candidate? {candidate : Candidate}
    (found : (candidate? schema model visible).value = some candidate) :
    candidate.Describes schema model visible := by
  cases target : target? schema visible with
  | none =>
    rw [candidate?_of_no_target target] at found
    cases found
  | some other =>
    rcases candidate?_of_target? model target with ⟨same, known, describes, _⟩
    cases known.symm.trans found
    exact describes

theorem value_candidatesOf (visibles : List VisibleField) :
    (candidatesOf schema model visibles).value =
      visibles.filterMap fun visible => (candidate? schema model visible).value := by
  induction visibles with
  | nil => rfl
  | cons visible rest ih =>
    rw [candidatesOf, Checked.value_bind, Checked.value_bind, ih, Checked.value_pure,
      List.filterMap_cons]
    cases (candidate? schema model visible).value <;> rfl

theorem diagnostics_candidatesOf (visibles : List VisibleField) :
    (candidatesOf schema model visibles).diagnostics.length =
      (candidatesOf schema model visibles).value.countP (·.key.isIncomplete) := by
  induction visibles with
  | nil => rfl
  | cons visible rest ih =>
    simp only [candidatesOf, Checked.diagnostics_bind, Checked.value_bind, Checked.value_pure,
      Checked.diagnostics_pure, List.append_nil, List.length_append, List.countP_append, ih]
    cases target : target? schema visible with
    | none => simp [candidate?_of_no_target target]
    | some other =>
      rcases candidate?_of_target? model target with ⟨candidate, known, _, reported⟩
      simp [known, reported, List.countP_cons]

theorem candidates_of_abstract {models : List Model} (isAbstract : model.isAbstract = true) :
    (candidates schema (model :: models)).value = (candidates schema models).value ∧
      (candidates schema (model :: models)).diagnostics =
        (candidates schema models).diagnostics := by
  simp [candidates, isAbstract]

theorem candidates_of_concrete {models : List Model} (concrete : model.isAbstract = false) :
    (candidates schema (model :: models)).value =
        (candidatesOf schema model (schema.fields model)).value ++
          (candidates schema models).value ∧
      (candidates schema (model :: models)).diagnostics =
        (candidatesOf schema model (schema.fields model)).diagnostics ++
          (candidates schema models).diagnostics := by
  simp [candidates, concrete]

theorem mem_candidates {models : List Model} {candidate : Candidate} :
    candidate ∈ (candidates schema models).value ↔
      ∃ model ∈ models, model.isAbstract = false ∧
        candidate ∈ (candidatesOf schema model (schema.fields model)).value := by
  induction models with
  | nil => simp [candidates]
  | cons model rest ih =>
    rw [List.exists_mem_cons_iff, ← ih]
    cases isAbstract : model.isAbstract with
    | true => simp [candidates_of_abstract isAbstract]
    | false => simp [candidates_of_concrete isAbstract]

theorem diagnostics_candidates (models : List Model) :
    (candidates schema models).diagnostics.length =
      (candidates schema models).value.countP (·.key.isIncomplete) := by
  induction models with
  | nil => rfl
  | cons model rest ih =>
    cases isAbstract : model.isAbstract with
    | true => rw [(candidates_of_abstract isAbstract).1, (candidates_of_abstract isAbstract).2, ih]
    | false =>
      rw [(candidates_of_concrete isAbstract).1, (candidates_of_concrete isAbstract).2,
        List.length_append, List.countP_append, ih, diagnostics_candidatesOf]

theorem describes_of_mem {models : List Model} {candidate : Candidate}
    (listed : candidate ∈ (candidates schema models).value) :
    ∃ model ∈ models, model.isAbstract = false ∧ ∃ visible ∈ schema.fields model,
      candidate.Describes schema model visible := by
  rcases mem_candidates.1 listed with ⟨model, member, concrete, found⟩
  rw [value_candidatesOf, List.mem_filterMap] at found
  rcases found with ⟨visible, seen, made⟩
  exact ⟨model, member, concrete, visible, seen, describes_of_candidate? made⟩

end Relation

def Schema.candidates (schema : Schema) : List Candidate :=
  (Relation.candidates schema schema.hierarchy.models).value

namespace Candidate

variable {schema : Schema} {candidate : Candidate}

theorem describes_of_mem (listed : candidate ∈ schema.candidates) :
    ∃ visible ∈ schema.fields candidate.model, candidate.model ∈ schema.hierarchy.models ∧
      candidate.model.isAbstract = false ∧
        candidate.Describes schema candidate.model visible := by
  rcases Relation.describes_of_mem listed with ⟨model, member, concrete, visible, seen, describes⟩
  cases describes.model
  exact ⟨visible, seen, member, concrete, describes⟩

theorem isRelationField_of_mem (listed : candidate ∈ schema.candidates) :
    schema.IsRelationField candidate.model candidate.field candidate.target := by
  rcases describes_of_mem listed with ⟨visible, seen, member, concrete, describes⟩
  have target := Relation.target?_eq_some.1 describes.target
  rw [describes.field]
  exact ⟨member, concrete, ⟨visible, seen, rfl, target.1⟩, target.2.1, target.2.2⟩

theorem statedBy_of_mem (listed : candidate ∈ schema.candidates) :
    candidate.key.StatedBy schema candidate.field := by
  rcases describes_of_mem listed with ⟨_, _, _, _, describes⟩
  exact describes.key

theorem name_of_mem (listed : candidate ∈ schema.candidates) :
    schema.relationName? candidate.field = candidate.name := by
  rcases describes_of_mem listed with ⟨_, _, _, _, describes⟩
  exact describes.name.symm

theorem groupKey_of_mem (listed : candidate ∈ schema.candidates) :
    candidate.groupKey =
      schema.relationGroup candidate.model candidate.field candidate.target := by
  rw [Schema.relationGroup, name_of_mem listed]
  rfl

end Candidate

theorem Schema.IsRelationField.exists_candidate {schema : Schema} {model : Model} {field : Field}
    {target : Model} (isField : schema.IsRelationField model field target) :
    ∃ candidate ∈ schema.candidates,
      candidate.model = model ∧ candidate.field = field ∧ candidate.target = target := by
  rcases isField.visible with ⟨visible, seen, rfl, direct⟩
  have found := Relation.target?_eq_some.2 ⟨direct, isField.type, isField.targetConcrete⟩
  rcases Relation.candidate?_of_target? model found with ⟨candidate, made, describes, _⟩
  refine ⟨candidate, Relation.mem_candidates.2 ⟨model, isField.member, isField.concrete, ?_⟩,
    describes.model, describes.field, Option.some.inj (describes.target.symm.trans found)⟩
  rw [Relation.value_candidatesOf, List.mem_filterMap]
  exact ⟨visible, seen, made⟩

def Candidate.place (candidate : Candidate) : String × String :=
  (candidate.model.name.name, candidate.field.name.name)

namespace Relation

theorem nodup_place_candidatesOf {schema : Schema} {model : Model} {visibles : List VisibleField}
    (distinct : (visibles.map VisibleField.name).Nodup) :
    ((candidatesOf schema model visibles).value.map Candidate.place).Nodup := by
  rw [List.Nodup, List.pairwise_map] at distinct
  rw [value_candidatesOf, List.Nodup, List.pairwise_map, List.pairwise_filterMap]
  refine distinct.imp fun apart first isFirst second isSecond same => apart ?_
  have firstField := (describes_of_candidate? isFirst).field
  have secondField := (describes_of_candidate? isSecond).field
  rw [VisibleField.name, VisibleField.name, ← firstField, ← secondField]
  exact congrArg Prod.snd same

theorem nodup_place_candidates {document : Document} {models : List Model}
    (unique : UniqueNames models) :
    ((candidates (.ofDocument document) models).value.map Candidate.place).Nodup := by
  induction models with
  | nil => exact List.Pairwise.nil
  | cons model rest ih =>
    have apart := List.nodup_cons.1 unique
    cases isAbstract : model.isAbstract with
    | true =>
      rw [(candidates_of_abstract isAbstract).1]
      exact ih apart.2
    | false =>
      rw [(candidates_of_concrete isAbstract).1, List.map_append]
      refine List.nodup_append.2 ⟨nodup_place_candidatesOf ?_, ih apart.2, ?_⟩
      · exact Hierarchy.nodup_fields_ofModels model.name.name
      · -- The fields of two models are different, as the models are.
        intro place here other there same
        rcases List.mem_map.1 here with ⟨candidate, own, rfl⟩
        rcases List.mem_map.1 there with ⟨opposite, listed, rfl⟩
        rw [value_candidatesOf, List.mem_filterMap] at own
        rcases own with ⟨visible, _, made⟩
        rcases describes_of_mem listed with ⟨source, member, _, _, _, describes⟩
        refine apart.1 (List.mem_map.2 ⟨source, member, ?_⟩)
        rw [← describes.model, ← (describes_of_candidate? made).model]
        exact (congrArg Prod.fst same).symm

end Relation

end Schemata
