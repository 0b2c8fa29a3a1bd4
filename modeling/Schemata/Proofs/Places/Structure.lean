import Schemata.Proofs.Places.Schema
import Schemata.Schema.References
import Schemata.Schema.Structure

set_option autoImplicit false

namespace Schemata

namespace SymbolTable

variable (table : SymbolTable)

@[simp] theorem checkType_erase (type : TypeRef) :
    table.erase.checkType type.erase = (table.checkType type).map Diagnostic.erase := by
  rcases type with ⟨name, isList, isOptional, span⟩
  cases name with
  | named name => simp [checkType, TypeName.erase]
  | _ => rfl

@[simp] theorem checkAttributeNames_erase (attributes : List Attribute) :
    table.erase.checkAttributeNames (attributes.map Attribute.erase) =
      (table.checkAttributeNames attributes).map Diagnostic.erase :=
  flatMap_erase fun applied => by simp

@[simp] theorem checkBases_erase (bases : List Ident) :
    table.erase.checkBases (bases.map Ident.erase) =
      (table.checkBases bases).map Diagnostic.erase :=
  flatMap_erase fun base => by simp

theorem checkDeclaration_erase (declaration : Declaration) :
    table.erase.checkDeclaration declaration.erase =
      (table.checkDeclaration declaration).map Diagnostic.erase := by
  cases declaration with
  | model model =>
    simp only [Declaration.erase, checkDeclaration, List.map_append, Model.bases_erase,
      Model.fields_erase, Model.attributes_erase, checkBases_erase, checkAttributeNames_erase]
    congr 2
    exact flatMap_erase fun field => by simp
  | enum decl =>
    simp only [Declaration.erase, checkDeclaration, List.map_append, EnumDecl.members_erase,
      EnumDecl.attributes_erase, checkAttributeNames_erase]
    congr 1
    exact flatMap_erase fun enumMember => by simp
  | function decl =>
    simp only [Declaration.erase, checkDeclaration, List.map_append, FunctionDecl.params_erase,
      FunctionDecl.result_erase, checkType_erase]
    congr 1
    exact flatMap_erase fun param => by simp
  | attr decl =>
    simp only [Declaration.erase, checkDeclaration, List.map_append, AttributeDecl.params_erase,
      AttributeDecl.restrictions_erase, checkAttributeNames_erase]
    congr 1
    exact flatMap_erase fun param => by simp
  | _ => rfl

theorem checkReferences_erase :
    table.erase.checkReferences = table.checkReferences.map Diagnostic.erase :=
  flatMap_erase table.checkDeclaration_erase

end SymbolTable

namespace Schema

variable (schema : Schema) (model : Model)

@[simp] theorem checkFieldType_erase (field : Field) :
    schema.erase.checkFieldType field.erase =
      (schema.checkFieldType field).map Diagnostic.erase := by
  simp only [checkFieldType, typeOf_erase, List.map_append, map_erase_reportIf]
  congr 1
  cases schema.typeOf field <;> simp [ResolvedType.erase]

@[simp] theorem isIdentifying_erase (visible : VisibleField) :
    schema.erase.isIdentifying visible.erase = schema.isIdentifying visible := by
  simp [isIdentifying]

@[simp] theorem checkIdField_erase (field : Field) :
    schema.erase.checkIdField field.erase = (schema.checkIdField field).map Diagnostic.erase := by
  simp only [checkIdField, typeOf_erase, ResolvedType.isScalarOrEnum_erase, Field.type_erase,
    TypeRef.isList_erase, TypeRef.isOptional_erase]
  split <;> simp

@[simp] theorem checkKeyFields_erase (applied : Attribute) :
    schema.erase.checkKeyFields model.erase applied.erase =
      (schema.checkKeyFields model applied).map Diagnostic.erase := by
  simp only [checkKeyFields, Attribute.fieldNames_erase, field?_erase, List.map_flatMap]
  refine congrArg (List.flatMap · applied.fieldNames) (funext fun name => ?_)
  cases schema.field? model name <;> simp

@[simp] theorem hasUniqueKey_erase :
    schema.erase.hasUniqueKey model.erase = schema.hasUniqueKey model := by
  simp only [hasUniqueKey, fields_erase, attributes_erase, field?_erase, List.any_map,
    List.filter_map, Function.comp_def, VisibleField.field_erase, Field.hasAttribute_erase,
    isIdentifying_erase, VisibleAttribute.name_erase, VisibleAttribute.applied_erase,
    Attribute.fieldNames_erase]
  refine congrArg (_ || ·) (congrArg (List.any _) (funext fun visible => ?_))
  refine congrArg (_ && ·) (congrArg (List.all _) (funext fun name => ?_))
  cases schema.field? model name <;> simp

theorem checkIdentity_erase :
    schema.erase.checkIdentity model.erase =
      (schema.checkIdentity model).map Diagnostic.erase := by
  have idFields : (schema.erase.fields model.erase).filter
      (fun visible => visible.field.hasAttribute "@id") =
        ((schema.fields model).filter fun visible => visible.field.hasAttribute "@id").map
          VisibleField.erase := by
    simp [List.filter_map, Function.comp_def]
  have modelIds : (schema.erase.attributes model.erase).filter (·.name == "@@id") =
      ((schema.attributes model).filter (·.name == "@@id")).map VisibleAttribute.erase := by
    simp [List.filter_map, Function.comp_def]
  have ids (fields : List VisibleField) :
      (fields.map VisibleField.erase).flatMap (fun visible => schema.erase.checkIdField visible.field) =
        (fields.flatMap fun visible => schema.checkIdField visible.field).map Diagnostic.erase :=
    flatMap_erase fun visible => by simp
  have keys (attributes : List VisibleAttribute) :
      (attributes.map VisibleAttribute.erase).flatMap
          (fun visible => schema.erase.checkKeyFields model.erase visible.applied) =
        (attributes.flatMap fun visible => schema.checkKeyFields model visible.applied).map
          Diagnostic.erase :=
    flatMap_erase fun visible => by simp
  simp only [checkIdentity, idFields, modelIds, ids, keys, hasUniqueKey_erase, List.map_append,
    map_erase_reportIf, List.length_map, List.isEmpty_map, Diagnostic.erase_error, Model.name_erase,
    Ident.span_erase]

theorem checkModel_erase :
    schema.erase.checkModel model.erase = (schema.checkModel model).map Diagnostic.erase := by
  have types : (model.fields.map Field.erase).flatMap schema.erase.checkFieldType =
      (model.fields.flatMap schema.checkFieldType).map Diagnostic.erase :=
    flatMap_erase schema.checkFieldType_erase
  rw [checkModel, checkModel, Model.isAbstract_erase, Model.fields_erase, types, List.map_append]
  cases model.isAbstract with
  | true => rfl
  | false => exact congrArg (_ ++ ·) (schema.checkIdentity_erase model)

end Schema

@[simp] theorem Expr.isConnection_erase (expr : Expr) :
    expr.erase.isConnection = expr.isConnection := by
  cases expr with
  | literal value span => cases value <;> rfl
  | call function arguments span =>
    rcases arguments with _ | ⟨_ | _, _ | _⟩ <;> simp [isConnection, Argument.erase]
  | _ => simp [isConnection, erase]

namespace ConfigBlock

variable (block : ConfigBlock)

theorem checkProvider_erase :
    block.erase.checkProvider = block.checkProvider.map Diagnostic.erase := by
  simp only [checkProvider, entry?_erase]
  cases block.entry? "provider" with
  | none => simp
  | some entry =>
    simp only [Option.map_some, ConfigEntry.value_erase, Expr.string?_erase]
    cases entry.value.string? <;> simp

theorem checkEntry_erase (entry : ConfigEntry) :
    checkEntry entry.erase = (checkEntry entry).map Diagnostic.erase := by
  simp only [checkEntry, apply_ite (List.map Diagnostic.erase), map_erase_reportIf,
    Diagnostic.erase_error, Diagnostic.erase_warning, ConfigEntry.name_erase,
    ConfigEntry.value_erase, Expr.isConnection_erase, Expr.string?_erase, Expr.span_erase,
    Ident.name_erase, Ident.span_erase]

theorem checkDataSource_erase :
    block.erase.checkDataSource = block.checkDataSource.map Diagnostic.erase := by
  simp only [checkDataSource, checkProvider_erase, entry?_erase, entries_erase, List.map_append,
    map_erase_reportIf]
  congr 1
  · simp
  · exact flatMap_erase checkEntry_erase

theorem checkPlugin_erase : block.erase.checkPlugin = block.checkPlugin.map Diagnostic.erase := by
  simp only [checkPlugin, entry?_erase, map_erase_reportIf]
  cases block.entry? "provider" <;> simp

end ConfigBlock

namespace EnumDecl

theorem checkMembers_erase (members : List EnumMember) : ∀ earlier : List String,
    checkMembers earlier (members.map EnumMember.erase) =
      (checkMembers earlier members).map Diagnostic.erase := by
  induction members with
  | nil => exact fun earlier => rfl
  | cons first rest ih =>
    intro earlier
    simp [checkMembers, ih]

theorem check_erase (decl : EnumDecl) : decl.erase.check = decl.check.map Diagnostic.erase := by
  simp [check, checkMembers_erase]

end EnumDecl

theorem Declaration.checkBlocks_erase (declarations : List Declaration) : ∀ seen : Bool,
    checkBlocks seen (declarations.map Declaration.erase) =
      (checkBlocks seen declarations).map Diagnostic.erase := by
  induction declarations with
  | nil => exact fun seen => rfl
  | cons declaration rest ih =>
    intro seen
    cases declaration with
    | dataSource block =>
      simp [erase, checkBlocks, ih, ConfigBlock.checkDataSource_erase]
    | plugin block => simp [erase, checkBlocks, ih, ConfigBlock.checkPlugin_erase]
    | enum decl => simp [erase, checkBlocks, ih, EnumDecl.check_erase]
    | _ => exact ih seen

theorem Document.hasDataSource_erase (document : Document) :
    document.erase.hasDataSource = document.hasDataSource := by
  rw [hasDataSource, declarations_erase, List.any_map]
  refine congrArg (List.any _) (funext fun declaration => ?_)
  cases declaration <;> rfl

theorem Schema.checkStructure_erase (schema : Schema) (options : ValidationOptions) :
    schema.erase.checkStructure options =
      (schema.checkStructure options).map Diagnostic.erase := by
  have models : (schema.hierarchy.models.map Model.erase).flatMap schema.erase.checkModel =
      (schema.hierarchy.models.flatMap schema.checkModel).map Diagnostic.erase :=
    flatMap_erase schema.checkModel_erase
  simp [checkStructure, models, Declaration.checkBlocks_erase, Document.hasDataSource_erase]

end Schemata
