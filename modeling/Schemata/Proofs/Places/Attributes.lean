import Schemata.Attribute.Check
import Schemata.Proofs.Places.Typing

set_option autoImplicit false

namespace Schemata

@[simp] theorem mapError_map_ok {ε ε' α β : Type} (value : α → β) (error : ε → ε') (result : α) :
    ((Except.ok result).map value).mapError error = .ok (value result) := rfl

@[simp] theorem mapError_map_error {ε ε' α β : Type} (value : α → β) (error : ε → ε')
    (failure : ε) : ((Except.error failure).map value).mapError error = .error (error failure) :=
  rfl

theorem toOption_map_mapError {ε ε' α β : Type} (value : α → β) (error : ε → ε')
    (result : Except ε α) :
    ((result.map value).mapError error).toOption = result.toOption.map value := by
  cases result <;> rfl

def BindError.erase (error : BindError) : BindError := { error with span := Span.zero }

@[simp] theorem BindError.diagnostic_erase (error : BindError) :
    error.erase.diagnostic = error.diagnostic.erase := rfl

def Bound.erase (bound : Bound) : Bound := ⟨bound.param.erase, bound.argument.erase⟩

namespace Bound

variable (bound : Bound)

@[simp] theorem param_erase : bound.erase.param = bound.param.erase := rfl

@[simp] theorem value_erase : bound.erase.value = bound.value.erase :=
  bound.argument.value_erase

@[simp] theorem value?_erase (bounds : List Bound) (param : String) :
    value? (bounds.map erase) param = (value? bounds param).map Expr.erase := by
  simp [value?, List.find?_map, Function.comp_def]

end Bound

def Slot.erase (slot : Slot) : Slot := ⟨slot.param.erase, slot.argument.map Argument.erase⟩

namespace Slot

variable (slot : Slot)

@[simp] theorem param_erase : slot.erase.param = slot.param.erase := rfl

@[simp] theorem argument_erase : slot.erase.argument = slot.argument.map Argument.erase := rfl

@[simp] theorem isOpen_erase : slot.erase.isOpen = slot.isOpen := by simp [isOpen]

@[simp] theorem isClaimed_erase : slot.erase.isClaimed = slot.isClaimed := by
  simp only [isClaimed, param_erase, AttributeParam.isPositional_erase, argument_erase]
  cases slot.argument <;> simp

variable (attr : String) (slots : List Slot) (argument : Argument)

@[simp] theorem indexFor?_erase :
    indexFor? (slots.map erase) argument.erase = indexFor? slots argument := by
  simp only [indexFor?, Argument.name?_erase, List.findIdx?_map, Function.comp_def, param_erase,
    AttributeParam.name_erase, Ident.name_erase, isOpen_erase]
  cases argument.name? <;> rfl

theorem missing_erase :
    missing attr (slots.map erase) argument.erase = (missing attr slots argument).erase := by
  simp only [missing, Argument.name?_erase, List.find?_map, Function.comp_def, isClaimed_erase]
  cases argument.name? with
  | some name => rfl
  | none => cases slots.find? isClaimed <;> simp [BindError.erase]

theorem place_erase :
    place attr (slots.map erase) argument.erase =
      ((place attr slots argument).map (List.map erase)).mapError BindError.erase := by
  simp only [place, indexFor?_erase, missing_erase, List.getElem?_map]
  cases indexFor? slots argument with
  | none => rfl
  | some index =>
    dsimp only
    cases slots[index]? with
    | none => rfl
    | some slot =>
      rcases slot with ⟨param, _ | taken⟩
      · simp [erase, List.map_set]
      · simp [erase, BindError.erase]

theorem placeAll_erase (arguments : List Argument) : ∀ slots : List Slot,
    placeAll attr (slots.map erase) (arguments.map Argument.erase) =
      ((placeAll attr slots arguments).1.map erase,
        (placeAll attr slots arguments).2.map BindError.erase) := by
  induction arguments with
  | nil => exact fun slots => rfl
  | cons argument rest ih =>
    intro slots
    simp only [List.map_cons, placeAll, place_erase]
    cases place attr slots argument with
    | ok placed => exact ih placed
    | error error => simp [ih]

theorem lack_erase (applied : Attribute) :
    lack applied.erase slot.erase = (lack applied slot).map BindError.erase := by
  simp only [lack, argument_erase, Option.isNone_map, param_erase, AttributeParam.isRequired_erase,
    apply_ite (Option.map BindError.erase)]
  rfl

theorem bound?_erase : slot.erase.bound? = slot.bound?.map Bound.erase := by
  simp [bound?, Bound.erase, Function.comp_def]

end Slot

theorem Attribute.bind_erase (decl : AttributeDecl) (applied : Attribute) :
    applied.erase.bind decl.erase =
      ((applied.bind decl).map (List.map Bound.erase)).mapError (List.map BindError.erase) := by
  have slots : (decl.params.map AttributeParam.erase).map (fun param => (⟨param, none⟩ : Slot)) =
      (decl.params.map fun param => (⟨param, none⟩ : Slot)).map Slot.erase := by
    rw [List.map_map, List.map_map]
    rfl
  have lacks (slots : List Slot) : (slots.map Slot.erase).filterMap (Slot.lack applied.erase) =
      (slots.filterMap (Slot.lack applied)).map BindError.erase :=
    filterMap_erase fun slot => slot.lack_erase applied
  have bounds (slots : List Slot) : (slots.map Slot.erase).filterMap Slot.bound? =
      (slots.filterMap Slot.bound?).map Bound.erase :=
    filterMap_erase Slot.bound?_erase
  simp only [bind, AttributeDecl.params_erase, arguments_erase, name_erase, Ident.name_erase, slots,
    Slot.placeAll_erase, lacks, bounds, ← List.map_append, List.isEmpty_map]
  split <;> rfl

def FieldItem.erase (item : FieldItem) : FieldItem :=
  ⟨item.field.erase, item.options.map (Prod.map Ident.erase Expr.erase)⟩

theorem Argument.options_erase (arguments : List Argument) :
    options (arguments.map erase) = (options arguments).map (Prod.map Ident.erase Expr.erase) :=
  filterMap_erase fun argument => by simp [Function.comp_def]

namespace Expr

theorem fieldItem?_erase (expr : Expr) :
    expr.erase.fieldItem? = expr.fieldItem?.map FieldItem.erase := by
  cases expr with
  | call function arguments span =>
    simp [fieldItem?, Argument.options_erase, FieldItem.erase]
  | _ => simp [fieldItem?, erase, FieldItem.erase]

theorem fieldItems_erase (expr : Expr) :
    expr.erase.fieldItems = expr.fieldItems.map FieldItem.erase := by
  cases expr with
  | list items span =>
    rw [erase_list]
    exact filterMap_erase fieldItem?_erase
  | call function arguments span =>
    rw [erase_call]
    simp [fieldItems, fieldItem?, Argument.options_erase, FieldItem.erase]
  | _ => simp [fieldItems, fieldItem?, erase, FieldItem.erase]

end Expr

def AttributeSite.erase : AttributeSite → AttributeSite
  | .field owner decorated => .field owner.erase decorated.erase
  | .model decl => .model decl.erase
  | .detached => .detached

namespace AttributeSite

variable (site : AttributeSite)

@[simp] theorem model?_erase : site.erase.model? = site.model?.map Model.erase := by
  cases site <;> rfl

@[simp] theorem field?_erase : site.erase.field? = site.field?.map Field.erase := by
  cases site <;> rfl

@[simp] theorem isField_erase : site.erase.isField = site.isField := by simp [isField]

@[simp] theorem scope_erase : site.erase.scope = Scope.erase site.scope := by cases site <;> rfl

end AttributeSite

@[simp] theorem erase_notAssignable (applied : Attribute) (param : String) (span : Span) :
    (notAssignable applied param span).erase = notAssignable applied.erase param Span.zero := rfl

@[simp] theorem ResolvedType.targetName?_erase (type : ResolvedType) (isList : Bool) :
    type.erase.targetName? isList = type.targetName? isList := by
  cases type <;> rfl

@[simp] theorem AttributeDecl.targets?_erase (decl : AttributeDecl) :
    decl.erase.targets? = decl.targets? := by
  simp only [targets?, restriction?_erase]
  cases decl.restriction? "@@@targetField" with
  | none => rfl
  | some restriction =>
    rcases first : restriction.arguments.head? with _ | argument
    · simp [first]
    · simp only [Option.map_some, Option.bind_eq_bind, Option.bind_some, Attribute.arguments_erase,
        List.head?_map, first, Argument.value_erase]
      cases argument.value with
      | list items span =>
        simp [List.filterMap_map, List.map_filterMap, Function.comp_def]
      | _ => simp [Expr.erase]

namespace Schema

variable (schema : Schema)

@[simp] theorem isApplicable_erase (decl : AttributeDecl) (field : Field) :
    schema.erase.isApplicable decl.erase field.erase = schema.isApplicable decl field := by
  simp [isApplicable]

@[simp] theorem isWholeNumber_erase (value : Expr) :
    isWholeNumber value.erase = isWholeNumber value := by
  cases value with
  | literal value span => cases value <;> rfl
  | _ => simp [isWholeNumber, Expr.erase]

@[simp] theorem isSortOrder_erase (value : Expr) :
    schema.erase.isSortOrder value.erase = schema.isSortOrder value := by
  simp only [isSortOrder, Expr.reference?_erase, symbols_erase, SymbolTable.enum?_erase]
  cases value.reference? with
  | none => rfl
  | some name => cases schema.symbols.enum? "SortOrder" <;> simp

theorem checkFieldOption_erase (applied : Attribute) (argument : Argument) :
    schema.erase.checkFieldOption applied.erase argument.erase =
      (schema.checkFieldOption applied argument).map Diagnostic.erase := by
  have option : argument.erase.name?.map Ident.name = argument.name?.map Ident.name := by
    simp [Function.comp_def]
  unfold checkFieldOption
  rw [option]
  generalize argument.name?.map Ident.name = name
  split <;> simp

theorem fieldOptions_erase (entry : Expr) :
    fieldOptions entry.erase = (fieldOptions entry).map Argument.erase := by
  cases entry with
  | call function arguments span => simp [fieldOptions]
  | _ => rfl

theorem checkFieldEntry_erase (applied : Attribute) (param : String) (model : Model)
    (entry : Expr) :
    schema.erase.checkFieldEntry applied.erase param model.erase entry.erase =
      (schema.checkFieldEntry applied param model entry).map Diagnostic.erase := by
  have options : (fieldOptions entry.erase).flatMap (schema.erase.checkFieldOption applied.erase) =
      ((fieldOptions entry).flatMap (schema.checkFieldOption applied)).map Diagnostic.erase := by
    rw [fieldOptions_erase]
    exact flatMap_erase (schema.checkFieldOption_erase applied)
  simp only [checkFieldEntry, Expr.fieldName?_erase, options]
  cases entry.fieldName? <;> simp

theorem fieldEntries?_erase (param : AttributeParam) (value : Expr) :
    fieldEntries? param.erase value.erase = (fieldEntries? param value).map (List.map Expr.erase) := by
  unfold fieldEntries?
  rw [AttributeParam.type_erase, TypeRef.isList_erase]
  cases param.type.isList with
  | false => rfl
  | true =>
    cases value with
    | list items span => simp
    | _ => rfl

theorem checkFieldReferences_erase (model : Option Model) (applied : Attribute) (bound : Bound) :
    schema.erase.checkFieldReferences (model.map Model.erase) applied.erase bound.erase =
      (schema.checkFieldReferences model applied bound).map Diagnostic.erase := by
  simp only [checkFieldReferences, Bound.param_erase, Bound.value_erase, fieldEntries?_erase,
    AttributeParam.name_erase, Ident.name_erase, Expr.span_erase]
  cases fieldEntries? bound.param bound.value with
  | none => rfl
  | some entries =>
    cases model with
    | none => rfl
    | some model => exact flatMap_erase (schema.checkFieldEntry_erase applied _ model)

@[simp] theorem contextType_erase (site : AttributeSite) :
    schema.erase.contextType site.erase = (schema.contextType site).erase := by
  unfold contextType
  rw [AttributeSite.field?_erase]
  cases site.field? with
  | none => rfl
  | some field => simp [ValueType.ofResolved_erase]

theorem checkTyped_erase (site : AttributeSite) (applied : Attribute) (bound : Bound)
    (expected : ValueType) :
    schema.erase.checkTyped site.erase applied.erase bound.erase expected.erase =
      (schema.checkTyped site applied bound expected).map Diagnostic.erase := by
  simp [checkTyped]

theorem checkValue_erase (site : AttributeSite) (applied : Attribute) (bound : Bound) :
    schema.erase.checkValue site.erase applied.erase bound.erase =
      (schema.checkValue site applied bound).map Diagnostic.erase := by
  have typed := schema.checkTyped_erase site applied bound (Typing.typeOfRef schema bound.param.type)
  rw [← Typing.typeOfRef_erase] at typed
  have target : site.erase.field?.bind (fun field => (schema.erase.typeOf field).model?) =
      (site.field?.bind fun field => (schema.typeOf field).model?).map Model.erase := by
    rw [AttributeSite.field?_erase]
    cases site.field? <;> simp
  simp only [checkValue, Bound.param_erase, AttributeParam.type_erase, TypeRef.name_erase,
    AttributeSite.model?_erase, target, contextType_erase]
  cases bound.param.type.name with
  | builtin kind =>
    cases kind with
    | fieldReference | transitiveFieldReference =>
      exact schema.checkFieldReferences_erase _ applied bound
    | contextType => exact schema.checkTyped_erase site applied bound _
    | _ => exact typed
  | _ => exact typed

theorem checkOperations_erase (site : AttributeSite) (applied : Attribute) (bounds : List Bound) :
    checkOperations site.erase applied.erase (bounds.map Bound.erase) =
      (checkOperations site applied bounds).erase id := by
  simp only [checkOperations, Bound.value?_erase, AttributeSite.isField_erase]
  cases Bound.value? bounds "operation" with
  | none => rfl
  | some value =>
    simp only [Option.map_some, Expr.string?_erase, Expr.span_erase]
    cases value.string? with
    | none => rfl
    | some text =>
      dsimp only
      cases Operation.readList site.isField text <;> rfl

theorem checkCondition_erase (future : Bool) (site : AttributeSite) (applied : Attribute)
    (bounds : List Bound) :
    schema.erase.checkCondition future site.erase applied.erase (bounds.map Bound.erase) =
      (schema.checkCondition future site applied bounds).map Diagnostic.erase := by
  simp only [checkCondition, Bound.value?_erase]
  cases Bound.value? bounds "condition" <;> simp

theorem checkPolicy_erase (site : AttributeSite) (applied : Attribute) (bounds : List Bound) :
    schema.erase.checkPolicy site.erase applied.erase (bounds.map Bound.erase) =
      (schema.checkPolicy site applied bounds).map Diagnostic.erase := by
  simp [checkPolicy, checkOperations_erase, checkCondition_erase]

theorem isDiscriminator_erase (field : Field) :
    schema.erase.isDiscriminator field.erase = schema.isDiscriminator field := by
  unfold isDiscriminator
  rw [typeOf_erase, Field.type_erase, TypeRef.isList_erase]
  cases schema.typeOf field <;> rfl

theorem checkDelegate_erase (model : Model) (applied : Attribute) (bounds : List Bound) :
    schema.erase.checkDelegate model.erase applied.erase (bounds.map Bound.erase) =
      (schema.checkDelegate model applied bounds).map Diagnostic.erase := by
  simp only [checkDelegate, Bound.value?_erase]
  cases Bound.value? bounds "discriminator" with
  | none => rfl
  | some value =>
    simp only [Option.map_some, Expr.reference?_erase, Expr.span_erase]
    cases value.reference? with
    | none => rfl
    | some name =>
      simp only [Option.map_some, Ident.name_erase, Model.field?_erase, field?_erase]
      cases model.field? name.name with
      | some field => simp [isDiscriminator_erase]
      | none => cases schema.field? model name.name <;> simp

theorem checkBound_erase (site : AttributeSite) (applied : Attribute) (bounds : List Bound) :
    schema.erase.checkBound site.erase applied.erase (bounds.map Bound.erase) =
      (schema.checkBound site applied bounds).map Diagnostic.erase := by
  have values : (bounds.map Bound.erase).flatMap
      (schema.erase.checkValue site.erase applied.erase) =
        (bounds.flatMap (schema.checkValue site applied)).map Diagnostic.erase :=
    flatMap_erase (schema.checkValue_erase site applied)
  simp only [checkBound, Attribute.name_erase, Ident.name_erase, checkPolicy_erase, values,
    AttributeSite.model?_erase, apply_ite (List.map Diagnostic.erase)]
  cases site.model? with
  | none => rfl
  | some model => simp only [Option.map_some, checkDelegate_erase]

theorem checkAttribute_erase (site : AttributeSite) (applied : Attribute) :
    schema.erase.checkAttribute site.erase applied.erase =
      (schema.checkAttribute site applied).map Diagnostic.erase := by
  simp only [checkAttribute, Attribute.name_erase, Ident.name_erase, symbols_erase,
    SymbolTable.attribute?_erase]
  cases schema.symbols.attribute? applied.name.name with
  | none => rfl
  | some decl =>
    simp only [Option.map_some, Attribute.bind_erase]
    cases applied.bind decl with
    | error errors => simp [Function.comp_def]
    | ok bounds =>
      have applicable : (site.field?.map Field.erase).all (schema.erase.isApplicable decl.erase) =
          site.field?.all (schema.isApplicable decl) := by
        cases site.field? <;> simp
      simp [applicable, checkBound_erase, apply_ite (List.map Diagnostic.erase)]

theorem checkModelAttributes_erase (model : Model) :
    schema.erase.checkModelAttributes model.erase =
      (schema.checkModelAttributes model).map Diagnostic.erase := by
  rw [checkModelAttributes, checkModelAttributes, List.map_append]
  congr 1
  · exact flatMap_erase fun field =>
      flatMap_erase (schema.checkAttribute_erase (.field model field))
  · exact flatMap_erase (schema.checkAttribute_erase (.model model))

theorem checkEnumAttributes_erase (decl : EnumDecl) :
    schema.erase.checkEnumAttributes decl.erase =
      (schema.checkEnumAttributes decl).map Diagnostic.erase := by
  rw [checkEnumAttributes, checkEnumAttributes, List.map_append]
  congr 1
  · exact flatMap_erase fun enumMember => flatMap_erase (schema.checkAttribute_erase .detached)
  · exact flatMap_erase (schema.checkAttribute_erase .detached)

theorem checkAttributes_erase :
    schema.erase.checkAttributes = schema.checkAttributes.map Diagnostic.erase := by
  simp only [checkAttributes, document_erase, Document.models_erase, Document.enums_erase,
    Document.attributeDecls_erase, List.map_append]
  congr 1
  · congr 1
    · exact flatMap_erase schema.checkModelAttributes_erase
    · exact flatMap_erase schema.checkEnumAttributes_erase
  · exact flatMap_erase fun decl => flatMap_erase (schema.checkAttribute_erase .detached)

end Schema

end Schemata
