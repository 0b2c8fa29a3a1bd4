import Schemata.Proofs.Schema.Hierarchy
import Schemata.Proofs.Schema.Symbols
import Schemata.Validation

set_option autoImplicit false

namespace Schemata

@[simp] theorem Diagnostic.isError_error (span : Span) (issue : Issue) :
    (Diagnostic.error span issue).isError = true := rfl

def Clean (diagnostics : List Diagnostic) : Prop :=
  ∀ diagnostic ∈ diagnostics, diagnostic.isError = false

namespace Clean

@[simp] theorem nil : Clean [] := fun _ found => nomatch found

@[simp] theorem cons_error (span : Span) (issue : Issue) (rest : List Diagnostic) :
    ¬ Clean (.error span issue :: rest) :=
  fun clean => absurd (clean _ List.mem_cons_self) (by simp)

@[simp] theorem append {first second : List Diagnostic} :
    Clean (first ++ second) ↔ Clean first ∧ Clean second :=
  List.forall_mem_append

@[simp] theorem flatMap {α : Type} {items : List α} {check : α → List Diagnostic} :
    Clean (items.flatMap check) ↔ ∀ item ∈ items, Clean (check item) := by
  constructor
  · intro clean item found diagnostic reported
    exact clean diagnostic (List.mem_flatMap.2 ⟨item, found, reported⟩)
  · intro clean diagnostic reported
    obtain ⟨item, found, reported⟩ := List.mem_flatMap.1 reported
    exact clean item found diagnostic reported

@[simp] theorem map_error {α : Type} {items : List α} {span : α → Span} {issue : α → Issue} :
    Clean (items.map fun item => .error (span item) (issue item)) ↔ items = [] := by
  cases items <;> simp

@[simp] theorem reportIf_error {condition : Bool} {span : Span} {issue : Issue} :
    Clean (reportIf condition (.error span issue)) ↔ condition = false := by
  cases condition <;> simp [reportIf]

@[simp] theorem reportIf_unresolved {condition : Bool} {target : LinkTarget} {ident : Ident} :
    Clean (reportIf condition (.unresolved target ident)) ↔ condition = false :=
  reportIf_error

end Clean

variable {document : Document} {options : ValidationOptions}

theorem Document.clean_of_isValid (valid : (document.validate options).isValid = true)
    (pass : Pass) : Clean (pass.run (Schema.ofDocument document) options) := by
  have all : Clean ((Schema.ofDocument document).diagnose options) := by
    simpa [Validation.isValid, hasErrors, Document.validate, Clean] using valid
  have passes : Clean (Pass.all.flatMap (Pass.run (Schema.ofDocument document) options)) := by
    unfold Schema.diagnose at all
    split at all
    · intro diagnostic reported
      -- Promoting makes an error of every diagnostic, so that there is none at all.
      have promoted := all diagnostic.promote (List.mem_map_of_mem reported)
      simp [Diagnostic.promote, Diagnostic.isError] at promoted
    · exact all
  apply Clean.flatMap.1 passes pass
  cases pass <;> decide

theorem SymbolTable.clean_checkType {table : SymbolTable} {type : TypeRef} {ident : Ident}
    (clean : Clean (table.checkType type)) (named : type.name = .named ident) :
    (∃ model, table.resolve type = .model model) ∨ ∃ decl, table.resolve type = .enum decl := by
  simp only [checkType, named, Clean.reportIf_unresolved, Bool.and_eq_false_iff,
    Option.isNone_eq_false_iff] at clean
  simp only [resolve, named]
  rcases clean with model | decl
  · obtain ⟨model, found⟩ := Option.isSome_iff_exists.1 model
    simp only [model?] at found
    split at found <;> simp_all
  · obtain ⟨decl, found⟩ := Option.isSome_iff_exists.1 decl
    simp only [enum?] at found
    split at found <;> simp_all

def ResolvedType.IsFieldType : ResolvedType → Prop
  | .builtin _ | .unresolved => False
  | _ => True

theorem Document.declaration_of_mem_models {model : Model} (member : model ∈ document.models) :
    Declaration.model model ∈ document.declarations := by
  obtain ⟨declaration, found, same⟩ := List.mem_filterMap.1 member
  split at same <;> cases same
  exact found

theorem Document.clean_checkAttribute (valid : (document.validate options).isValid = true)
    {model : Model} (member : model ∈ document.models) :
    (∀ field ∈ model.fields, ∀ applied ∈ field.attributes,
      Clean ((Schema.ofDocument document).checkAttribute (.field model field) applied)) ∧
    ∀ applied ∈ model.attributes,
      Clean ((Schema.ofDocument document).checkAttribute (.model model) applied) := by
  have clean := document.clean_of_isValid valid .attributes
  simp only [Pass.run, Schema.checkAttributes, Clean.append, Clean.flatMap,
    Schema.checkModelAttributes] at clean
  exact clean.1.1 model member

theorem Document.clean_checkModel (valid : (document.validate options).isValid = true)
    {model : Model} (member : model ∈ document.models) :
    Clean ((Schema.ofDocument document).checkModel model) := by
  have clean := document.clean_of_isValid valid .structural
  simp only [Pass.run, Schema.checkStructure, Clean.append, Clean.flatMap] at clean
  exact clean.1.1 model ((Hierarchy.models_ofModels document.models).symm ▸ member)

theorem Document.isFieldType_of_isValid (valid : (document.validate options).isValid = true)
    {model : Model} {field : Field} (member : model ∈ document.models)
    (declared : field ∈ model.fields) :
    ((Schema.ofDocument document).typeOf field).IsFieldType := by
  have references := document.clean_of_isValid valid .references
  have clean : Clean ((Schema.ofDocument document).symbols.checkType field.type) := by
    have here := Clean.flatMap.1 references _ (declaration_of_mem_models member)
    simp only [SymbolTable.checkDeclaration, Clean.append, Clean.flatMap] at here
    exact (here.1.2 field declared).1
  have fieldType : Clean ((Schema.ofDocument document).checkFieldType field) := by
    have structural := document.clean_checkModel valid member
    simp only [Schema.checkModel, Clean.append, Clean.flatMap] at structural
    exact structural.1 field declared
  cases type : (Schema.ofDocument document).typeOf field with
  | builtin kind => simp [Schema.checkFieldType, type] at fieldType
  | unresolved =>
    unfold Schema.typeOf at type
    -- A declared type resolves by the check of references, and all others resolve anyway.
    cases named : field.type.name with
    | named ident =>
      rcases SymbolTable.clean_checkType clean named with ⟨target, resolved⟩ | ⟨decl, resolved⟩
      · simp [resolved] at type
      · simp [resolved] at type
    | _ => simp [SymbolTable.resolve, named] at type
  | _ => trivial

theorem Document.isFieldType_of_visible (valid : (document.validate options).isValid = true)
    {model : Model} {visible : VisibleField}
    (found : visible ∈ (Schema.ofDocument document).fields model) :
    ((Schema.ofDocument document).typeOf visible.field).IsFieldType := by
  obtain ⟨base, member, declared⟩ := Hierarchy.mem_fields_ofModels found
  exact document.isFieldType_of_isValid valid member declared

end Schemata
