import Schemata.Proofs.Order.Reorder
import Schemata.Proofs.Validation.Clean

set_option autoImplicit false

namespace Schemata

variable {order : Model → List Ident} {schema other : Schema}

namespace SymbolTable

variable (reordered : Schema.Reordered order schema other)
include reordered

theorem checkType_reorder : other.symbols.checkType = schema.symbols.checkType := by
  funext type
  unfold checkType
  split
  · rw [reordered.model?, reordered.enum?, Option.isNone_map]
  · rfl

theorem checkAttributeNames_reorder :
    other.symbols.checkAttributeNames = schema.symbols.checkAttributeNames := by
  funext attributes
  unfold checkAttributeNames
  simp only [reordered.attribute?]

theorem checkBases_reorder : other.symbols.checkBases = schema.symbols.checkBases := by
  funext bases
  unfold checkBases
  simp only [reordered.model?, Option.isNone_map]

theorem checkDeclaration_reorder (declaration : Declaration)
    (sameBases : ∀ model, declaration = .model model → (order model).Perm model.bases) :
    (other.symbols.checkDeclaration (declaration.reorder order)).Perm
      (schema.symbols.checkDeclaration declaration) := by
  cases declaration with
  | model model =>
    simp only [Declaration.reorder, checkDeclaration, checkBases_reorder reordered,
      checkType_reorder reordered, checkAttributeNames_reorder reordered, Model.fields_reorder,
      Model.attributes_reorder]
    exact (((sameBases model rfl).flatMap_right _).append_right _).append_right _
  | _ =>
    simp only [Declaration.reorder, checkDeclaration, checkType_reorder reordered,
      checkAttributeNames_reorder reordered]
    exact .refl _

end SymbolTable

namespace Schema

variable (reordered : Reordered order schema other) (model : Model)
include reordered

theorem checkFieldType_reorder : other.checkFieldType = schema.checkFieldType := by
  funext field
  unfold checkFieldType
  rw [reordered.typeOf]
  cases schema.typeOf field <;> rfl

theorem isIdentifying_reorder {there here : VisibleField} (same : there.field = here.field) :
    other.isIdentifying there = schema.isIdentifying here := by
  rw [isIdentifying, reordered.typeOf, ResolvedType.isScalarOrEnum_reorder, same, isIdentifying]

theorem checkIdField_reorder : other.checkIdField = schema.checkIdField := by
  funext field
  unfold checkIdField
  rw [reordered.typeOf, ResolvedType.isScalarOrEnum_reorder]

theorem checkKeyFields_reorder (applied : Attribute) :
    other.checkKeyFields (model.reorder order) applied = schema.checkKeyFields model applied := by
  unfold checkKeyFields
  refine congrArg (List.flatMap · applied.fieldNames) (funext fun name => ?_)
  rcases reordered.field?_cases model name with
    ⟨missing, missingToo⟩ | ⟨there, here, known, knownToo, same⟩
  · rw [missing, missingToo]
  · simp only [known, knownToo, isIdentifying_reorder reordered same]

theorem hasUniqueKey_reorder :
    other.hasUniqueKey (model.reorder order) = schema.hasUniqueKey model := by
  have fields := reordered.fields model.name.name
  have lists := filter_perm_of_map_perm (reordered.attributes model.name.name)
    (·.name.name == "@@unique")
  unfold hasUniqueKey
  refine congrArg₂ (· || ·) (any_eq_of_map_perm fields ?_) (any_eq_of_map_perm lists ?_)
  · intro there _ here _ same
    rw [same, isIdentifying_reorder reordered same]
  · intro there _ here _ same
    simp only [same]
    refine congrArg (!here.applied.fieldNames.isEmpty && here.applied.fieldNames.all ·)
      (funext fun name => ?_)
    rcases reordered.field?_cases model name with
      ⟨missing, missingToo⟩ | ⟨there, here, known, knownToo, same⟩
    · rw [missing, missingToo]
    · simp only [known, knownToo, isIdentifying_reorder reordered same]

theorem checkIdentity_reorder :
    (other.checkIdentity (model.reorder order)).Perm (schema.checkIdentity model) := by
  have ids := filter_perm_of_map_perm (reordered.fields model.name.name) (·.hasAttribute "@id")
  have lists := filter_perm_of_map_perm (reordered.attributes model.name.name)
    (·.name.name == "@@id")
  have idCount := ids.length_eq
  have listCount := lists.length_eq
  have noIds := ids.isEmpty_eq
  have noLists := lists.isEmpty_eq
  rw [List.length_map, List.length_map] at idCount listCount
  rw [List.isEmpty_map, List.isEmpty_map] at noIds noLists
  unfold checkIdentity
  simp only [fields, attributes, VisibleAttribute.name, Model.name_reorder, idCount, listCount,
    noIds, noLists, hasUniqueKey_reorder reordered]
  refine .append_right _ (.append (.append_right _ (.append_right _ (.append_left _ ?_))) ?_)
  · refine flatMap_perm_of_map_perm ids fun there _ here _ same => ?_
    rw [checkIdField_reorder reordered, same]
  · refine flatMap_perm_of_map_perm lists fun there _ here _ same => ?_
    rw [checkKeyFields_reorder reordered, same]

theorem checkModel_reorder :
    (other.checkModel (model.reorder order)).Perm (schema.checkModel model) := by
  unfold checkModel
  rw [checkFieldType_reorder reordered, Model.fields_reorder, Model.isAbstract_reorder]
  refine .append_left _ ?_
  split
  · exact .refl _
  · exact checkIdentity_reorder reordered model

end Schema

namespace Declaration

def isDataSource : Declaration → Bool
  | .dataSource _ => true
  | _ => false

def checkBlock : Declaration → List Diagnostic
  | .dataSource block => block.checkDataSource
  | .plugin block => block.checkPlugin
  | .enum decl => decl.check
  | _ => []

@[simp] theorem isDataSource_reorder (declaration : Declaration) :
    (declaration.reorder order).isDataSource = declaration.isDataSource := by
  cases declaration <;> rfl

@[simp] theorem checkBlock_reorder (declaration : Declaration) :
    (declaration.reorder order).checkBlock = declaration.checkBlock := by
  cases declaration <;> rfl

theorem checkBlocks_cons (seen : Bool) (first : Declaration) (rest : List Declaration) :
    checkBlocks seen (first :: rest) =
      reportIf (seen && first.isDataSource)
          (.error first.name.span (.structural .severalDataSources)) ++
        first.checkBlock ++ checkBlocks (seen || first.isDataSource) rest := by
  cases first with
  | dataSource block => simp [checkBlocks, isDataSource, checkBlock, name]
  | _ => simp [checkBlocks, isDataSource, checkBlock, reportIf]

theorem checkBlocks_eq_flatMap (declarations : List Declaration) : ∀ seen : Bool,
    declarations.countP isDataSource + seen.toNat ≤ 1 →
      checkBlocks seen declarations = declarations.flatMap checkBlock := by
  induction declarations with
  | nil => exact fun seen _ => rfl
  | cons first rest ih =>
    intro seen single
    rw [List.countP_cons] at single
    rw [checkBlocks_cons, List.flatMap_cons]
    cases isSource : first.isDataSource <;> cases seen <;> simp_all [reportIf]

theorem countP_le_of_clean (declarations : List Declaration) : ∀ seen : Bool,
    Clean (checkBlocks seen declarations) → declarations.countP isDataSource + seen.toNat ≤ 1 := by
  induction declarations with
  | nil =>
    intro seen _
    cases seen <;> decide
  | cons first rest ih =>
    intro seen clean
    rw [checkBlocks_cons, Clean.append, Clean.append] at clean
    have behind := ih _ clean.2
    rw [List.countP_cons]
    cases isSource : first.isDataSource <;> cases seen <;> simp_all [reportIf]

end Declaration

variable {document altered : Document}

theorem Declaration.checkBlocks_perm
    (declared : altered.declarations.Perm (document.reorder order).declarations)
    (clean : Clean (checkBlocks false document.declarations)) :
    (checkBlocks false altered.declarations).Perm (checkBlocks false document.declarations) := by
  have single := countP_le_of_clean _ _ clean
  have count : altered.declarations.countP isDataSource =
      document.declarations.countP isDataSource := by
    rw [declared.countP_eq, Document.reorder, List.countP_map]
    exact List.countP_congr fun declaration _ => by simp
  rw [checkBlocks_eq_flatMap _ _ single, checkBlocks_eq_flatMap _ _ (count ▸ single)]
  refine (declared.flatMap_right _).trans ?_
  rw [Document.reorder, List.flatMap_map]
  simp only [checkBlock_reorder]
  exact .refl _

end Schemata
