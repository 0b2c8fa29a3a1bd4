import Schemata.Proofs.Places.Syntax

set_option autoImplicit false

namespace Schemata

namespace Diagnostic

def erase (diagnostic : Diagnostic) : Diagnostic := { diagnostic with span := Span.zero }

variable (span : Span) (issue : Issue)

@[simp] theorem erase_error : (error span issue).erase = error Span.zero issue := rfl

@[simp] theorem erase_warning : (warning span issue).erase = warning Span.zero issue := rfl

@[simp] theorem erase_unresolved (target : LinkTarget) (ident : Ident) :
    (unresolved target ident).erase = unresolved target ident.erase := rfl

end Diagnostic

@[simp] theorem map_erase_reportIf (condition : Bool) (diagnostic : Diagnostic) :
    (reportIf condition diagnostic).map Diagnostic.erase =
      reportIf condition diagnostic.erase := by
  cases condition <;> rfl

theorem flatMap_erase {α β : Type} {items : List α} {outer : α → β} {check : α → List Diagnostic}
    {check' : β → List Diagnostic}
    (same : ∀ item, check' (outer item) = (check item).map Diagnostic.erase) :
    (items.map outer).flatMap check' = (items.flatMap check).map Diagnostic.erase := by
  rw [List.flatMap_map, List.map_flatMap]
  exact congrArg (List.flatMap · items) (funext same)

namespace Checked

def erase {α β : Type} (value : α → β) (checked : Checked α) : Checked β :=
  ⟨value checked.value, checked.diagnostics.map Diagnostic.erase⟩

variable {α β γ δ : Type}

@[simp] theorem value_erase (value : α → β) (checked : Checked α) :
    (checked.erase value).value = value checked.value := rfl

@[simp] theorem diagnostics_erase (value : α → β) (checked : Checked α) :
    (checked.erase value).diagnostics = checked.diagnostics.map Diagnostic.erase := rfl

@[simp] theorem erase_mk (value : α → β) (result : α) (diagnostics : List Diagnostic) :
    (⟨result, diagnostics⟩ : Checked α).erase value =
      ⟨value result, diagnostics.map Diagnostic.erase⟩ := rfl

@[simp] theorem erase_pure (value : α → β) (result : α) :
    (Pure.pure result : Checked α).erase value = Pure.pure (value result) := rfl

theorem erase_bind {first : Checked α} {first' : Checked γ} {next : α → Checked β}
    {next' : γ → Checked δ} {outer : β → δ} (inner : α → γ) (same : first' = first.erase inner)
    (others : ∀ value, next' (inner value) = (next value).erase outer) :
    first' >>= next' = (first >>= next).erase outer := by
  subst same
  simp only [erase, Bind.bind, Checked.bind, others, List.map_append]

end Checked

def Symbol.erase (symbol : Symbol) : Symbol := ⟨symbol.declaration.erase, symbol.origin⟩

namespace Symbol

variable (symbol : Symbol)

@[simp] theorem declaration_erase : symbol.erase.declaration = symbol.declaration.erase := rfl

@[simp] theorem origin_erase : symbol.erase.origin = symbol.origin := rfl

@[simp] theorem name_erase : symbol.erase.name = symbol.name := by simp [name]

end Symbol

def ResolvedType.erase : ResolvedType → ResolvedType
  | .enum decl => .enum decl.erase
  | .model decl => .model decl.erase
  | other => other

namespace ResolvedType

variable (type : ResolvedType)

@[simp] theorem isScalarOrEnum_erase : type.erase.isScalarOrEnum = type.isScalarOrEnum := by
  cases type <;> rfl

@[simp] theorem model?_erase : type.erase.model? = type.model?.map Model.erase := by
  cases type <;> rfl

@[simp] theorem describe_erase : type.erase.describe = type.describe := by cases type <;> rfl

@[simp] theorem sameScalar_erase (left right : ResolvedType) :
    left.erase.sameScalar right.erase = left.sameScalar right := by
  cases left <;> cases right <;> rfl

end ResolvedType

def SymbolTable.erase (table : SymbolTable) : SymbolTable :=
  ⟨table.document.erase, table.symbols.map Symbol.erase⟩

namespace SymbolTable

@[simp] theorem find?_erase (symbols : List Symbol) (name : String) :
    find? (symbols.map Symbol.erase) name = (find? symbols name).map Symbol.erase := by
  simp only [find?, List.find?_map, Function.comp_def, Symbol.name_erase]

theorem extend_erase (declarations : List Declaration) : ∀ symbols : List Symbol,
    extend (symbols.map Symbol.erase) (declarations.map Declaration.erase) =
      ((extend symbols declarations).1.map Symbol.erase,
        (extend symbols declarations).2.map Diagnostic.erase) := by
  induction declarations with
  | nil => exact fun symbols => rfl
  | cons declaration rest ih =>
    intro symbols
    simp only [List.map_cons, extend, Declaration.name_erase, Ident.name_erase, find?_erase]
    cases known : find? symbols declaration.name.name with
    | none =>
      have step := ih (symbols ++ [⟨declaration, .document⟩])
      rw [List.map_append] at step
      exact step
    | some symbol => rcases symbol with ⟨first, _ | _⟩ <;> simp [ih, Symbol.erase]

theorem librarySymbols_erase : librarySymbols.map Symbol.erase = librarySymbols := rfl

theorem ofDocument_erase (document : Document) :
    ofDocument document.erase = (ofDocument document).erase := by
  have extended := extend_erase document.declarations librarySymbols
  rw [librarySymbols_erase] at extended
  simp [ofDocument, erase, extended]

theorem clashes_erase (document : Document) :
    clashes document.erase = (clashes document).map Diagnostic.erase := by
  have extended := extend_erase document.declarations librarySymbols
  rw [librarySymbols_erase] at extended
  simp [clashes, extended]

variable (table : SymbolTable)

@[simp] theorem symbols_erase : table.erase.symbols = table.symbols.map Symbol.erase := rfl

@[simp] theorem symbol?_erase (name : String) :
    table.erase.symbol? name = (table.symbol? name).map Symbol.erase :=
  find?_erase _ _

@[simp] theorem declaration?_erase (name : String) :
    table.erase.declaration? name = (table.declaration? name).map Declaration.erase := by
  simp [declaration?, Function.comp_def]

@[simp] theorem origin?_erase (name : String) : table.erase.origin? name = table.origin? name := by
  simp [origin?, Function.comp_def]

@[simp] theorem model?_erase (name : String) :
    table.erase.model? name = (table.model? name).map Model.erase := by
  unfold model?
  rw [declaration?_erase]
  rcases table.declaration? name with _ | _ | _ <;> rfl

@[simp] theorem enum?_erase (name : String) :
    table.erase.enum? name = (table.enum? name).map EnumDecl.erase := by
  unfold enum?
  rw [declaration?_erase]
  rcases table.declaration? name with _ | _ | _ <;> rfl

@[simp] theorem function?_erase (name : String) :
    table.erase.function? name = (table.function? name).map FunctionDecl.erase := by
  unfold function?
  rw [declaration?_erase]
  rcases table.declaration? name with _ | _ | _ <;> rfl

@[simp] theorem attribute?_erase (name : String) :
    table.erase.attribute? name = (table.attribute? name).map AttributeDecl.erase := by
  unfold attribute?
  rw [declaration?_erase]
  rcases table.declaration? name with _ | _ | _ <;> rfl

@[simp] theorem enumsOf_erase (origin : Origin) :
    table.erase.enumsOf origin = (table.enumsOf origin).map EnumDecl.erase := by
  refine filterMap_erase fun symbol => ?_
  rcases symbol with ⟨declaration, place⟩
  cases declaration with
  | enum decl => by_cases same : place = origin <;> simp [Symbol.erase, Declaration.erase, same]
  | _ => rfl

@[simp] theorem enumMember?_erase (name : String) :
    table.erase.enumMember? name =
      (table.enumMember? name).map (Prod.map EnumDecl.erase EnumMember.erase) := by
  have enums : table.erase.enums = table.enums.map EnumDecl.erase := by simp [enums]
  rw [enumMember?, enums, List.findSome?_map, enumMember?, List.map_findSome?]
  simp [Function.comp_def]

@[simp] theorem resolve_erase (type : TypeRef) :
    table.erase.resolve type.erase = (table.resolve type).erase := by
  rcases type with ⟨name, isList, isOptional, span⟩
  cases name with
  | named name =>
    simp only [resolve, TypeRef.name_erase, TypeName.erase, Ident.name_erase, declaration?_erase]
    rcases table.declaration? name.name with _ | _ | _ <;> rfl
  | _ => rfl

end SymbolTable

def VisibleField.erase (visible : VisibleField) : VisibleField :=
  { visible with field := visible.field.erase }

namespace VisibleField

variable (visible : VisibleField)

@[simp] theorem field_erase : visible.erase.field = visible.field.erase := rfl

@[simp] theorem name_erase : visible.erase.name = visible.name := rfl

@[simp] theorem declaredIn_erase : visible.erase.declaredIn = visible.declaredIn := rfl

@[simp] theorem inherited_erase : visible.erase.inherited = visible.inherited := rfl

@[simp] theorem viaDelegate_erase : visible.erase.viaDelegate = visible.viaDelegate := rfl

end VisibleField

def VisibleAttribute.erase (visible : VisibleAttribute) : VisibleAttribute :=
  { visible with applied := visible.applied.erase }

namespace VisibleAttribute

variable (visible : VisibleAttribute)

@[simp] theorem applied_erase : visible.erase.applied = visible.applied.erase := rfl

@[simp] theorem name_erase : visible.erase.name = visible.name := rfl

end VisibleAttribute

@[simp] theorem Model.baseKind?_erase (model : Model) :
    model.erase.baseKind? = model.baseKind? := by
  unfold baseKind? isDelegate
  rw [isAbstract_erase, hasAttribute_erase]

def ModelView.erase (view : ModelView) : ModelView :=
  ⟨view.model.erase, view.fields.map VisibleField.erase, view.attributes.map VisibleAttribute.erase,
    view.delegate.map Model.erase⟩

def Hierarchy.erase (hierarchy : Hierarchy) : Hierarchy :=
  { hierarchy with views := hierarchy.views.map ModelView.erase }

namespace Hierarchy

section

variable (models : List Model) (model : Model) (index : Nat)

@[simp] theorem indexOf?_erase (name : String) :
    indexOf? (models.map Model.erase) name = indexOf? models name := by
  simp [indexOf?, List.findIdx?_map, Function.comp_def]

@[simp] theorem basesOf_erase :
    basesOf (models.map Model.erase) model.erase = basesOf models model := by
  simp only [basesOf, Model.bases_erase, List.filterMap_map]
  refine congrArg (List.filterMap · model.bases) (funext fun base => ?_)
  simp only [indexOf?_erase, List.getElem?_map, Option.bind_eq_bind, Option.bind_map,
    Function.comp_def, Model.baseKind?_erase, Ident.name_erase]

@[simp] theorem basesAt_erase :
    basesAt (models.map Model.erase) index = basesAt models index := by
  unfold basesAt
  rw [List.getElem?_map]
  cases models[index]? with
  | none => rfl
  | some model => exact basesOf_erase models model

@[simp] theorem edgesOf_erase :
    edgesOf (models.map Model.erase) model.erase = edgesOf models model := by
  simp [edgesOf, Option.bind_map, Function.comp_def]

@[simp] theorem checkBases_erase :
    checkBases (models.map Model.erase) model.erase =
      (checkBases models model).map Diagnostic.erase := by
  simp only [checkBases, basesOf_erase, Model.bases_erase, List.filter_map, List.find?_map,
    List.map_append, List.map_map, map_erase_reportIf, Function.comp_def, Ident.name_erase,
    Model.name_erase, Ident.span_erase, Diagnostic.erase_error]
  refine congrArg (· ++ _) (congrArg (List.map _) (List.filter_congr fun name _ => ?_))
  cases models.find? (·.name.name == name.name) with
  | none => rfl
  | some base => exact congrArg Option.isNone base.baseKind?_erase

@[simp] theorem cycleFrom?_erase : cycleFrom? (models.map Model.erase) index = cycleFrom? models index := by
  simp [cycleFrom?]

@[simp] theorem nameAt_erase : nameAt (models.map Model.erase) index = nameAt models index := by
  simp [nameAt, Function.comp_def]

@[simp] theorem gather_erase (fuel : Nat) : ∀ (viaDelegate : Bool) (lineage : Lineage) (node : Nat),
    gather (models.map Model.erase) fuel viaDelegate lineage node =
      gather models fuel viaDelegate lineage node := by
  induction fuel with
  | zero => exact fun _ _ _ => rfl
  | succ fuel ih =>
    intro viaDelegate lineage node
    simp only [gather, basesAt_erase, ih]

@[simp] theorem ancestorsAt_erase :
    ancestorsAt (models.map Model.erase) index = ancestorsAt models index := by
  simp [ancestorsAt]

@[simp] theorem inheritedFields_erase (ancestor : Ancestor) :
    inheritedFields (models.map Model.erase) ancestor =
      (inheritedFields models ancestor).map VisibleField.erase := by
  unfold inheritedFields
  rw [List.getElem?_map]
  cases models[ancestor.index]? with
  | none => rfl
  | some base => simp [VisibleField.erase]

@[simp] theorem inheritedAttributes_erase (ancestor : Ancestor) :
    inheritedAttributes (models.map Model.erase) ancestor =
      (inheritedAttributes models ancestor).map VisibleAttribute.erase := by
  unfold inheritedAttributes
  rw [List.getElem?_map]
  cases models[ancestor.index]? with
  | none => rfl
  | some base =>
    simp only [Option.map_some, Model.attributes_erase, List.filter_map, List.map_map,
      Function.comp_def, Attribute.name_erase, Ident.name_erase, Model.name_erase]
    rfl

@[simp] theorem reachingFields_erase :
    reachingFields (models.map Model.erase) index model.erase =
      (reachingFields models index model).map VisibleField.erase := by
  have above := funext (inheritedFields_erase models)
  simp only [reachingFields, ancestorsAt_erase, above, List.map_append, List.map_flatMap,
    List.map_map, Model.fields_erase]
  rfl

@[simp] theorem visibleAttributes_erase :
    visibleAttributes (models.map Model.erase) index model.erase =
      (visibleAttributes models index model).map VisibleAttribute.erase := by
  have above := funext (inheritedAttributes_erase models)
  simp only [visibleAttributes, ancestorsAt_erase, above, List.map_append, List.map_flatMap,
    List.map_map, Model.attributes_erase]
  rfl

@[simp] theorem clash_erase (previous next : VisibleField) :
    clash model.erase previous.erase next.erase =
      (clash model previous next).map Diagnostic.erase := by
  unfold clash
  simp only [VisibleField.inherited_erase, VisibleField.declaredIn_erase]
  by_cases inherited : next.inherited = true
  next => by_cases same : previous.declaredIn = next.declaredIn <;> simp [inherited, same]
  next => by_cases above : previous.inherited = true <;> simp [inherited, above]

theorem dedupe_erase (rest : List VisibleField) : ∀ kept : List VisibleField,
    dedupe model.erase (kept.map VisibleField.erase) (rest.map VisibleField.erase) =
      (dedupe model kept rest).erase (List.map VisibleField.erase) := by
  induction rest with
  | nil => exact fun kept => rfl
  | cons next rest ih =>
    intro kept
    simp only [List.map_cons, dedupe, List.find?_map, Function.comp_def, VisibleField.name_erase]
    cases taken : kept.find? (·.name == next.name) with
    | none =>
      have step := ih (kept ++ [next])
      rw [List.map_append] at step
      exact step
    | some previous => simp [ih, Checked.erase]

@[simp] theorem visibleFields_erase :
    visibleFields (models.map Model.erase) index model.erase =
      (visibleFields models index model).erase (List.map VisibleField.erase) := by
  rw [visibleFields, reachingFields_erase]
  exact dedupe_erase model _ []

@[simp] theorem viewAt_erase :
    viewAt (models.map Model.erase) index model.erase = (viewAt models index model).erase := by
  have delegate : delegateOf (models.map Model.erase) index =
      (delegateOf models index).map Model.erase := by
    simp only [delegateOf, basesAt_erase, List.getElem?_map, Option.map_bind, Function.comp_def]
  simp [viewAt, ModelView.erase, delegate]

theorem ofModels_erase : ofModels (models.map Model.erase) = (ofModels models).erase := by
  simp [ofModels, erase, List.zipIdx_map, List.flatMap_map, Function.comp_def]

theorem check_erase :
    check (models.map Model.erase) = (check models).map Diagnostic.erase := by
  have cycles : checkCycles (models.map Model.erase) =
      (checkCycles models).map Diagnostic.erase := by
    rw [checkCycles, List.zipIdx_map]
    refine flatMap_erase fun (model, root) => ?_
    have names := funext (nameAt_erase models)
    simp only [Prod.map, id_eq, cycleFrom?_erase, names]
    cases cycleFrom? models root <;> rfl
  have bases : (models.map Model.erase).flatMap (checkBases (models.map Model.erase)) =
      (models.flatMap (checkBases models)).map Diagnostic.erase :=
    flatMap_erase (checkBases_erase models)
  rw [check, cycles, bases, List.zipIdx_map, check, List.map_append, List.map_append]
  refine congrArg (_ ++ ·) (flatMap_erase fun (model, index) => ?_)
  simp [Prod.map]

end

variable (hierarchy : Hierarchy) (name : String)

@[simp] theorem edges_erase : hierarchy.erase.edges = hierarchy.edges := rfl

@[simp] theorem models_erase : hierarchy.erase.models = hierarchy.models.map Model.erase := by
  simp [models, erase, ModelView.erase]

@[simp] theorem view?_erase :
    hierarchy.erase.view? name = (hierarchy.view? name).map ModelView.erase := by
  simp [view?, erase, List.find?_map, Function.comp_def, ModelView.erase]

@[simp] theorem fields_erase :
    hierarchy.erase.fields name = (hierarchy.fields name).map VisibleField.erase := by
  rw [fields, fields, view?_erase]
  cases hierarchy.view? name <;> rfl

@[simp] theorem attributes_erase :
    hierarchy.erase.attributes name = (hierarchy.attributes name).map VisibleAttribute.erase := by
  rw [attributes, attributes, view?_erase]
  cases hierarchy.view? name <;> rfl

end Hierarchy

def Schema.erase (schema : Schema) : Schema := ⟨schema.symbols.erase, schema.hierarchy.erase⟩

namespace Schema

theorem ofDocument_erase (document : Document) :
    ofDocument document.erase = (ofDocument document).erase := by
  simp [ofDocument, erase, SymbolTable.ofDocument_erase, Hierarchy.ofModels_erase]

variable (schema : Schema) (model : Model)

@[simp] theorem symbols_erase : schema.erase.symbols = schema.symbols.erase := rfl

@[simp] theorem hierarchy_erase : schema.erase.hierarchy = schema.hierarchy.erase := rfl

@[simp] theorem document_erase : schema.erase.document = schema.document.erase := rfl

@[simp] theorem fields_erase :
    schema.erase.fields model.erase = (schema.fields model).map VisibleField.erase :=
  schema.hierarchy.fields_erase _

@[simp] theorem attributes_erase :
    schema.erase.attributes model.erase = (schema.attributes model).map VisibleAttribute.erase :=
  schema.hierarchy.attributes_erase _

@[simp] theorem field?_erase (name : String) :
    schema.erase.field? model.erase name = (schema.field? model name).map VisibleField.erase := by
  simp [field?, List.find?_map, Function.comp_def]

@[simp] theorem typeOf_erase (field : Field) :
    schema.erase.typeOf field.erase = (schema.typeOf field).erase :=
  schema.symbols.resolve_erase _

@[simp] theorem principal?_erase : schema.erase.principal? = schema.principal?.map Model.erase :=
  schema.symbols.model?_erase _

@[simp] theorem idFields_erase :
    schema.erase.idFields model.erase = (schema.idFields model).map Field.erase := by
  have marked (name : String) : (fun visible : VisibleField => visible.field.hasAttribute name) ∘
      VisibleField.erase = fun visible => visible.field.hasAttribute name := by
    funext visible
    simp
  have named : (fun visible : VisibleAttribute => visible.name == "@@id") ∘ VisibleAttribute.erase =
      fun visible => visible.name == "@@id" := rfl
  simp only [idFields, fields_erase, attributes_erase, List.filter_map, List.find?_map, marked,
    named, List.isEmpty_map]
  cases ids : (schema.fields model).filter fun visible => visible.field.hasAttribute "@id" with
  | cons visible rest => simp
  | nil =>
    cases (schema.attributes model).find? (·.name == "@@id") with
    | some visible => simp [List.map_filterMap, Function.comp_def]
    | none =>
      cases (schema.fields model).find? fun visible => visible.field.hasAttribute "@unique" <;> rfl

end Schema

end Schemata
