import Schemata.Proofs.Order.Attributes
import Schemata.Proofs.Order.Structure

set_option autoImplicit false

namespace Schemata

structure Document.Reordered (order : Model → List Ident) (document other : Document) : Prop where
  declarations : other.declarations.Perm (document.reorder order).declarations
  bases : ∀ model ∈ document.models, (order model).Perm model.bases
  schema : Schema.Reordered order (.ofDocument document) (.ofDocument other)

namespace Document.Reordered

variable {order : Model → List Ident} {document other : Document} {options : ValidationOptions}
  (reordered : Document.Reordered order document other)
include reordered

theorem models : other.models.Perm (document.models.map (Model.reorder order)) :=
  document.models_reorder ▸ reordered.declarations.filterMap _

theorem enums : other.enums.Perm document.enums :=
  (reordered.declarations.filterMap _).trans (.of_eq document.enums_reorder)

theorem functions : other.functions.Perm document.functions :=
  (reordered.declarations.filterMap _).trans (.of_eq document.functions_reorder)

theorem attributeDecls : other.attributeDecls.Perm document.attributeDecls :=
  (reordered.declarations.filterMap _).trans (.of_eq document.attributeDecls_reorder)

theorem flatMap_models {check check' : Model → List Diagnostic}
    (same : ∀ model ∈ document.models, (check' (model.reorder order)).Perm (check model)) :
    (other.models.flatMap check').Perm (document.models.flatMap check) := by
  refine (reordered.models.flatMap_right _).trans ?_
  rw [List.flatMap_map]
  exact .flatMap_left _ same

theorem checkReferences : (SymbolTable.ofDocument other).checkReferences.Perm
    (SymbolTable.ofDocument document).checkReferences := by
  unfold SymbolTable.checkReferences
  refine (reordered.declarations.flatMap_right _).trans ?_
  rw [reorder, List.flatMap_map]
  refine .flatMap_left _ fun declaration declared => ?_
  refine SymbolTable.checkDeclaration_reorder reordered.schema declaration fun model same => ?_
  exact reordered.bases model (List.mem_filterMap.2 ⟨declaration, declared, by rw [same]⟩)

theorem hasDataSource : other.hasDataSource = document.hasDataSource := by
  unfold Document.hasDataSource
  rw [reordered.declarations.any_eq, reorder, List.any_map]
  refine congrArg (List.any _) (funext fun declaration => ?_)
  cases declaration <;> rfl

theorem checkStructure
    (clean : Clean ((Schema.ofDocument document).checkStructure options)) :
    ((Schema.ofDocument other).checkStructure options).Perm
      ((Schema.ofDocument document).checkStructure options) := by
  unfold Schema.checkStructure at clean ⊢
  rw [Clean.append, Clean.append] at clean
  have same (document : Document) : (Schema.ofDocument document).document = document := rfl
  rw [Schema.models_ofDocument, Schema.models_ofDocument, same, same, reordered.hasDataSource]
  refine .append_right _ (.append ?_ ?_)
  · exact reordered.flatMap_models fun model _ =>
      Schema.checkModel_reorder reordered.schema model
  · exact Declaration.checkBlocks_perm reordered.declarations clean.1.2

theorem checkAttributes : (Schema.ofDocument other).checkAttributes.Perm
    (Schema.ofDocument document).checkAttributes := by
  unfold Schema.checkAttributes
  rw [Schema.checkDetached_reorder reordered.schema,
    funext (Schema.checkEnumAttributes_reorder reordered.schema)]
  refine .append (.append ?_ ?_) ?_
  · refine reordered.flatMap_models fun model _ => ?_
    rw [Schema.checkModelAttributes_reorder reordered.schema]
  · exact reordered.enums.flatMap_right _
  · exact reordered.attributeDecls.flatMap_right _

theorem checkFunctions :
    (other.functions.flatMap (FunctionDecl.check (.ofDocument other))).Perm
      (document.functions.flatMap (FunctionDecl.check (.ofDocument document))) := by
  rw [funext (FunctionDecl.check_reorder reordered.schema)]
  exact reordered.functions.flatMap_right _

theorem isValid (valid : (document.validate options).isValid = true)
    (symbols : SymbolTable.clashes other = []) (inheritance : Hierarchy.check other.models = [])
    (relations : (Schema.ofDocument other).relations.diagnostics ⊆
      (Schema.ofDocument document).relations.diagnostics) :
    (other.validate options).isValid = true := by
  have silent {reports others : List Diagnostic} (none : reports = []) : reports ⊆ others :=
    none ▸ List.nil_subset others
  have within (pass : Pass) : pass.run (.ofDocument other) options ⊆
      pass.run (.ofDocument document) options := by
    cases pass with
    | symbols => exact silent symbols
    | references => exact reordered.checkReferences.subset
    | inheritance => exact silent inheritance
    | structural =>
      exact (reordered.checkStructure (document.clean_of_isValid valid .structural)).subset
    | relations => exact relations
    | attributes => exact reordered.checkAttributes.subset
    | functions => exact reordered.checkFunctions.subset
  have reports : (Schema.ofDocument other).diagnose options ⊆
      (Schema.ofDocument document).diagnose options := by
    have passes : Pass.all.flatMap (Pass.run (.ofDocument other) options) ⊆
        Pass.all.flatMap (Pass.run (.ofDocument document) options) := by
      intro diagnostic reported
      obtain ⟨pass, listed, reported⟩ := List.mem_flatMap.1 reported
      exact List.mem_flatMap.2 ⟨pass, listed, within pass reported⟩
    unfold Schema.diagnose
    split
    · exact List.map_subset _ passes
    · exact passes
  unfold Validation.isValid hasErrors at valid ⊢
  rw [Bool.not_eq_true', List.any_eq_false] at valid ⊢
  exact fun diagnostic reported => valid diagnostic (reports reported)

end Document.Reordered

end Schemata
