import Schemata.Proofs.Schema.Members
import Schemata.Proofs.Validation.Located
import Schemata.Schema.References
import Schemata.Schema.Structure

set_option autoImplicit false

namespace Schemata

variable {text : String}

@[simp] theorem TypeRef.isWithin_outline {type : TypeRef} :
    type.outline.IsWithin text ↔
      type.span.IsWithin text ∧ ∀ part ∈ type.name.outlines, part.IsWithin text := by
  simp only [outline, Outline.all_node, List.forall_mem_singleton]

@[simp] theorem Field.isWithin_outline {field : Field} :
    field.outline.IsWithin text ↔
      field.span.IsWithin text ∧ field.name.span.IsWithin text ∧ field.type.outline.IsWithin text ∧
        ∀ applied ∈ field.attributes, applied.outline.IsWithin text := by
  simp only [outline, Outline.all_node, List.forall_mem_singleton, List.forall_mem_cons,
    List.forall_mem_map, Ident.all_outline]

structure Model.PartsWithin (text : String) (model : Model) : Prop where
  name : model.name.span.IsWithin text
  bases : ∀ base ∈ model.bases, base.span.IsWithin text
  fields : ∀ field ∈ model.fields, field.outline.IsWithin text
  attributes : ∀ applied ∈ model.attributes, applied.outline.IsWithin text

theorem Model.partsWithin {model : Model} (within : model.outline.IsWithin text) :
    model.PartsWithin text := by
  simp only [outline, Outline.all_node, List.forall_mem_singleton, List.forall_mem_cons,
    List.forall_mem_append, List.forall_mem_map, Ident.all_outline, List.cons_append]
    at within
  obtain ⟨-, ⟨name, bases, fields⟩, -, -, attributes⟩ := within
  exact ⟨name, bases, fields, attributes⟩

theorem EnumMember.isWithin_outline {enumMember : EnumMember} :
    enumMember.outline.IsWithin text ↔
      enumMember.span.IsWithin text ∧ enumMember.name.span.IsWithin text ∧
        ∀ applied ∈ enumMember.attributes, applied.outline.IsWithin text := by
  simp only [outline, Outline.all_node, List.forall_mem_singleton, List.forall_mem_cons,
    List.forall_mem_map, Ident.all_outline]

structure EnumDecl.PartsWithin (text : String) (decl : EnumDecl) : Prop where
  name : decl.name.span.IsWithin text
  members : ∀ enumMember ∈ decl.members, enumMember.outline.IsWithin text
  attributes : ∀ applied ∈ decl.attributes, applied.outline.IsWithin text

theorem EnumDecl.partsWithin {decl : EnumDecl} (within : decl.outline.IsWithin text) :
    decl.PartsWithin text := by
  simp only [outline, Outline.all_node, List.forall_mem_singleton, List.forall_mem_cons,
    List.forall_mem_map, Ident.all_outline] at within
  obtain ⟨-, ⟨name, members⟩, -, attributes⟩ := within
  exact ⟨name, members, attributes⟩

theorem ConfigEntry.isWithin_outline {entry : ConfigEntry} :
    entry.outline.IsWithin text ↔
      entry.span.IsWithin text ∧ entry.name.span.IsWithin text ∧
        entry.value.outline.IsWithin text := by
  simp only [outline, Outline.all_node, List.forall_mem_singleton, List.forall_mem_cons,
    Ident.all_outline]

theorem ConfigBlock.isWithin_outline {block : ConfigBlock} :
    block.outline.IsWithin text ↔
      block.span.IsWithin text ∧ block.name.span.IsWithin text ∧
        ∀ entry ∈ block.entries, entry.outline.IsWithin text := by
  simp only [outline, Outline.all_node, List.forall_mem_singleton, List.forall_mem_cons,
    List.forall_mem_map, Ident.all_outline]

structure FunctionDecl.PartsWithin (text : String) (decl : FunctionDecl) : Prop where
  name : decl.name.span.IsWithin text
  params : ∀ param ∈ decl.params, param.type.outline.IsWithin text
  result : decl.result.outline.IsWithin text
  body : ∀ body ∈ decl.body, body.outline.IsWithin text

theorem FunctionDecl.partsWithin {decl : FunctionDecl} (within : decl.outline.IsWithin text) :
    decl.PartsWithin text := by
  simp only [outline, Outline.all_node, List.forall_mem_singleton, List.forall_mem_cons,
    List.forall_mem_append, List.forall_mem_map, List.forall_mem_flatMap, List.cons_append,
    FunctionParam.outlines, Ident.all_outline, Option.mem_toList] at within
  obtain ⟨-, name, params, result, body⟩ := within
  exact ⟨name, fun param found => (params param found).2, result, body⟩

structure AttributeDecl.PartsWithin (text : String) (decl : AttributeDecl) : Prop where
  name : decl.name.span.IsWithin text
  params : ∀ param ∈ decl.params, param.type.outline.IsWithin text
  restrictions : ∀ applied ∈ decl.restrictions, applied.outline.IsWithin text

theorem AttributeDecl.partsWithin {decl : AttributeDecl} (within : decl.outline.IsWithin text) :
    decl.PartsWithin text := by
  simp only [outline, Outline.all_node, List.forall_mem_singleton, List.forall_mem_cons,
    List.forall_mem_append, List.forall_mem_map, List.forall_mem_flatMap, List.cons_append,
    AttributeParam.outlines, Ident.all_outline] at within
  obtain ⟨-, name, params, restrictions⟩ := within
  exact ⟨name, fun param found => (params param found).2, restrictions⟩

theorem Declaration.isWithin_name {declaration : Declaration}
    (within : declaration.outline.IsWithin text) : declaration.name.span.IsWithin text := by
  cases declaration with
  | dataSource block | plugin block => exact (ConfigBlock.isWithin_outline.1 within).2.1
  | enum decl => exact (EnumDecl.partsWithin within).name
  | model model => exact (Model.partsWithin within).name
  | function decl => exact (FunctionDecl.partsWithin within).name
  | attr decl => exact (AttributeDecl.partsWithin within).name

namespace SymbolTable

theorem located_extend {declarations : List Declaration}
    (within : ∀ declaration ∈ declarations, declaration.outline.IsWithin text) :
    ∀ symbols, Located text (extend symbols declarations).2 := by
  induction declarations with
  | nil => exact fun _ => Located.nil
  | cons declaration rest ih =>
    obtain ⟨here, behind⟩ := List.forall_mem_cons.1 within
    have name := declaration.isWithin_name here
    intro symbols
    simp only [extend]
    split
    · exact Located.cons.2 ⟨name, ih behind _⟩
    · exact Located.cons.2 ⟨name, ih behind _⟩
    · exact ih behind _

variable {table : SymbolTable}

theorem located_checkType {type : TypeRef} (within : type.outline.IsWithin text) :
    Located text (table.checkType type) := by
  unfold checkType
  split
  next name named =>
    have placed := (TypeRef.isWithin_outline.1 within).2
    rw [named] at placed
    simpa using fun _ _ => Ident.all_outline.1 (List.forall_mem_singleton.1 placed)
  next => exact Located.nil

theorem located_checkAttributeNames {attributes : List Attribute}
    (within : ∀ applied ∈ attributes, applied.outline.IsWithin text) :
    Located text (table.checkAttributeNames attributes) := by
  simp only [checkAttributeNames, Located.flatMap, Located.reportIf]
  exact fun applied found _ => (Attribute.isWithin_outline.1 (within applied found)).2.1

theorem located_checkDeclaration {declaration : Declaration}
    (within : declaration.outline.IsWithin text) :
    Located text (table.checkDeclaration declaration) := by
  cases declaration with
  | dataSource | plugin => exact Located.nil
  | enum decl =>
    obtain ⟨-, members, attributes⟩ := EnumDecl.partsWithin within
    simp only [checkDeclaration, Located.append, Located.flatMap]
    refine ⟨fun enumMember found => ?_, located_checkAttributeNames attributes⟩
    exact located_checkAttributeNames
      (EnumMember.isWithin_outline.1 (members enumMember found)).2.2
  | model model =>
    obtain ⟨-, bases, fields, attributes⟩ := Model.partsWithin within
    simp only [checkDeclaration, checkBases, Located.append, Located.flatMap, Located.reportIf]
    refine ⟨⟨fun base found _ => bases base found, fun field found => ?_⟩,
      located_checkAttributeNames attributes⟩
    obtain ⟨-, -, type, applied⟩ := Field.isWithin_outline.1 (fields field found)
    exact ⟨located_checkType type, located_checkAttributeNames applied⟩
  | function decl =>
    obtain ⟨-, params, result, -⟩ := FunctionDecl.partsWithin within
    simp only [checkDeclaration, Located.append, Located.flatMap]
    exact ⟨fun param found => located_checkType (params param found), located_checkType result⟩
  | attr decl =>
    obtain ⟨-, params, restrictions⟩ := AttributeDecl.partsWithin within
    simp only [checkDeclaration, Located.append, Located.flatMap]
    exact ⟨fun param found => located_checkType (params param found),
      located_checkAttributeNames restrictions⟩

end SymbolTable

namespace Hierarchy

theorem located_clash {model : Model} {next : VisibleField}
    (name : model.name.span.IsWithin text) (own : next.field.name.span.IsWithin text)
    (previous : VisibleField) : Located text (clash model previous next) := by
  unfold clash
  simp only
  split
  · split <;> simpa using own
  · split
    · exact Located.nil
    · simpa using name

theorem located_dedupe {model : Model} {reaching : List VisibleField}
    (name : model.name.span.IsWithin text)
    (within : ∀ visible ∈ reaching, visible.field.name.span.IsWithin text) :
    ∀ kept, Located text (dedupe model kept reaching).diagnostics := by
  induction reaching with
  | nil => exact fun _ => Located.nil
  | cons next rest ih =>
    obtain ⟨here, behind⟩ := List.forall_mem_cons.1 within
    intro kept
    rw [dedupe]
    split
    · exact ih behind _
    · exact Located.append.2 ⟨located_clash name here _, ih behind _⟩

theorem located_check {models : List Model}
    (within : ∀ model ∈ models, model.outline.IsWithin text) : Located text (check models) := by
  have parts (model : Model) (member : model ∈ models) := Model.partsWithin (within model member)
  simp only [check, Located.append, Located.flatMap]
  refine ⟨⟨fun model member => ?_, ?_⟩, ?_⟩
  · simp only [checkBases, Located.append, Located.map, Located.reportIf]
    exact ⟨fun base found => (parts model member).bases base (List.mem_filter.1 found).1,
      fun _ => (parts model member).name⟩
  · simp only [checkCycles, Located.flatMap]
    rintro ⟨model, root⟩ listed
    simp only
    split
    · simpa using (parts model (List.fst_mem_of_mem_zipIdx listed)).name
    · exact Located.nil
  · rintro ⟨model, index⟩ listed
    have member := List.fst_mem_of_mem_zipIdx listed
    refine located_dedupe (parts model member).name (fun visible found => ?_) []
    obtain ⟨base, above, declared⟩ := mem_reachingFields member found
    exact (Field.isWithin_outline.1 ((parts base above).fields _ declared)).2.1

end Hierarchy

namespace ConfigBlock

variable {block : ConfigBlock}

theorem isWithin_of_entry? {name : String} {entry : ConfigEntry}
    (within : block.outline.IsWithin text) (found : block.entry? name = some entry) :
    entry.value.span.IsWithin text := by
  have placed := (isWithin_outline.1 within).2.2 entry (List.mem_of_find?_eq_some found)
  exact Expr.all_span (ConfigEntry.isWithin_outline.1 placed).2.2

theorem located_checkProvider (within : block.outline.IsWithin text) :
    Located text block.checkProvider := by
  unfold checkProvider
  split
  next => simpa using (isWithin_outline.1 within).2.1
  next entry found =>
    have value := isWithin_of_entry? within found
    split
    next => simpa using value
    next => simp [value]

theorem located_checkEntry {entry : ConfigEntry} (within : entry.outline.IsWithin text) :
    Located text (checkEntry entry) := by
  obtain ⟨-, name, placed⟩ := ConfigEntry.isWithin_outline.1 within
  have value := Expr.all_span placed
  unfold checkEntry
  simp only
  split
  · simp [value]
  · split <;> simp [value, name]

theorem located_checkDataSource (within : block.outline.IsWithin text) :
    Located text block.checkDataSource := by
  obtain ⟨-, name, entries⟩ := isWithin_outline.1 within
  simp only [checkDataSource, Located.append, Located.flatMap, Located.reportIf]
  exact ⟨⟨located_checkProvider within, fun _ => name⟩,
    fun entry found => located_checkEntry (entries entry found)⟩

theorem located_checkPlugin (within : block.outline.IsWithin text) :
    Located text block.checkPlugin :=
  Located.reportIf.2 fun _ => (isWithin_outline.1 within).2.1

end ConfigBlock

theorem EnumDecl.located_checkMembers {members : List EnumMember}
    (within : ∀ enumMember ∈ members, enumMember.outline.IsWithin text) :
    ∀ earlier, Located text (checkMembers earlier members) := by
  induction members with
  | nil => exact fun _ => Located.nil
  | cons first rest ih =>
    obtain ⟨here, behind⟩ := List.forall_mem_cons.1 within
    intro earlier
    simp only [checkMembers, Located.append, Located.reportIf]
    exact ⟨fun _ => (EnumMember.isWithin_outline.1 here).2.1, ih behind _⟩

theorem Declaration.located_checkBlocks {declarations : List Declaration}
    (within : ∀ declaration ∈ declarations, declaration.outline.IsWithin text) :
    ∀ seen, Located text (checkBlocks seen declarations) := by
  induction declarations with
  | nil => exact fun _ => Located.nil
  | cons declaration rest ih =>
    obtain ⟨here, behind⟩ := List.forall_mem_cons.1 within
    intro seen
    cases declaration with
    | dataSource block =>
      simp only [checkBlocks, Located.append, Located.reportIf]
      exact ⟨⟨fun _ => (ConfigBlock.isWithin_outline.1 here).2.1,
        ConfigBlock.located_checkDataSource here⟩, ih behind _⟩
    | plugin block => exact Located.append.2 ⟨ConfigBlock.located_checkPlugin here, ih behind _⟩
    | enum decl =>
      obtain ⟨name, members, -⟩ := EnumDecl.partsWithin here
      simp only [checkBlocks, EnumDecl.check, Located.append, Located.reportIf]
      exact ⟨⟨fun _ => name, EnumDecl.located_checkMembers members _⟩, ih behind _⟩
    | model | function | attr => exact ih behind _

namespace Document

variable {document : Document}

theorem declaration_of_mem_enums {decl : EnumDecl} (member : decl ∈ document.enums) :
    Declaration.enum decl ∈ document.declarations := by
  obtain ⟨declaration, found, same⟩ := List.mem_filterMap.1 member
  split at same <;> cases same
  exact found

theorem declaration_of_mem_functions {decl : FunctionDecl} (member : decl ∈ document.functions) :
    Declaration.function decl ∈ document.declarations := by
  obtain ⟨declaration, found, same⟩ := List.mem_filterMap.1 member
  split at same <;> cases same
  exact found

theorem declaration_of_mem_attributeDecls {decl : AttributeDecl}
    (member : decl ∈ document.attributeDecls) :
    Declaration.attr decl ∈ document.declarations := by
  obtain ⟨declaration, found, same⟩ := List.mem_filterMap.1 member
  split at same <;> cases same
  exact found

end Document

structure Schema.IsWithin (text : String) (schema : Schema) : Prop where
  declarations : ∀ declaration ∈ schema.document.declarations,
    declaration.outline.IsWithin text
  models : ∀ model ∈ schema.hierarchy.models, model.outline.IsWithin text
  fields : ∀ model, ∀ visible ∈ schema.fields model, visible.field.outline.IsWithin text
  attributes : ∀ model, ∀ visible ∈ schema.attributes model,
    visible.applied.outline.IsWithin text

namespace Schema

theorem isWithin_ofDocument {document : Document}
    (within : ∀ declaration ∈ document.declarations, declaration.outline.IsWithin text) :
    (ofDocument document).IsWithin text := by
  have models (model : Model) (member : model ∈ document.models) :=
    within _ (Document.declaration_of_mem_models member)
  refine ⟨within, ?_, fun model visible found => ?_, fun model visible found => ?_⟩
  · rw [models_ofDocument]
    exact models
  · obtain ⟨base, member, declared⟩ := Hierarchy.mem_fields_ofModels found
    exact (Model.partsWithin (models base member)).fields _ declared
  · obtain ⟨base, member, declared⟩ := Hierarchy.mem_attributes_ofModels found
    exact (Model.partsWithin (models base member)).attributes _ declared

variable {schema : Schema}

theorem located_checkFieldType {field : Field} (within : field.outline.IsWithin text) :
    Located text (schema.checkFieldType field) := by
  obtain ⟨-, -, type, -⟩ := Field.isWithin_outline.1 within
  have span := (TypeRef.isWithin_outline.1 type).1
  simp only [checkFieldType, Located.append, Located.reportIf]
  refine ⟨fun _ => span, ?_⟩
  split
  · simpa using span
  · simp [span]
  · exact Located.nil

theorem located_checkIdField {field : Field} (within : field.outline.IsWithin text) :
    Located text (schema.checkIdField field) := by
  obtain ⟨-, name, -, -⟩ := Field.isWithin_outline.1 within
  unfold checkIdField
  simp only
  split <;> simp [name]

theorem located_checkKeyFields {applied : Attribute} (within : applied.outline.IsWithin text)
    (model : Model) : Located text (schema.checkKeyFields model applied) := by
  refine Located.flatMap.2 fun name _ => ?_
  split
  · simp [(Attribute.isWithin_outline.1 within).1]
  · exact Located.nil

theorem located_checkIdentity (within : schema.IsWithin text) {model : Model}
    (placed : model.outline.IsWithin text) : Located text (schema.checkIdentity model) := by
  have name := (Model.partsWithin placed).name
  simp only [checkIdentity, Located.append, Located.flatMap, Located.reportIf,
    Diagnostic.span_error, List.mem_filter]
  exact ⟨⟨⟨⟨⟨fun _ => name, fun visible found =>
    located_checkIdField (within.fields model visible found.1)⟩, fun _ => name⟩, fun _ => name⟩,
    fun visible found => located_checkKeyFields (within.attributes model visible found.1) model⟩,
    fun _ => name⟩

theorem located_checkModel (within : schema.IsWithin text) {model : Model}
    (member : model ∈ schema.hierarchy.models) : Located text (schema.checkModel model) := by
  have placed := within.models model member
  simp only [checkModel, Located.append, Located.flatMap]
  refine ⟨fun field found => located_checkFieldType ((Model.partsWithin placed).fields field found),
    ?_⟩
  split
  · exact Located.nil
  · exact located_checkIdentity within placed

theorem located_checkStructure (within : schema.IsWithin text) (options : ValidationOptions) :
    Located text (schema.checkStructure options) := by
  simp only [checkStructure, Located.append, Located.flatMap, Located.reportIf]
  refine ⟨⟨fun model member => located_checkModel within member,
    Declaration.located_checkBlocks within.declarations false⟩, fun _ => ?_⟩
  -- That a data source is missing is reported at the start of the text.
  exact ⟨⟨[], _, rfl, rfl⟩, ⟨[], _, rfl, rfl⟩, Nat.le_refl _⟩

theorem located_checkAttributes (within : schema.IsWithin text) :
    Located text schema.checkAttributes := by
  simp only [checkAttributes, checkModelAttributes, checkEnumAttributes, Located.append,
    Located.flatMap]
  refine ⟨⟨fun model member => ?_, fun decl member => ?_⟩, fun decl member applied found => ?_⟩
  · have parts := Model.partsWithin
      (within.declarations _ (Document.declaration_of_mem_models member))
    refine ⟨fun field declared applied found => ?_, fun applied found =>
      located_checkAttribute (parts.attributes applied found)⟩
    obtain ⟨-, -, -, attributes⟩ := Field.isWithin_outline.1 (parts.fields field declared)
    exact located_checkAttribute (attributes applied found)
  · have parts := EnumDecl.partsWithin
      (within.declarations _ (Document.declaration_of_mem_enums member))
    refine ⟨fun enumMember declared applied found => ?_, fun applied found =>
      located_checkAttribute (parts.attributes applied found)⟩
    obtain ⟨-, -, attributes⟩ := EnumMember.isWithin_outline.1 (parts.members enumMember declared)
    exact located_checkAttribute (attributes applied found)
  · have parts := AttributeDecl.partsWithin
      (within.declarations _ (Document.declaration_of_mem_attributeDecls member))
    exact located_checkAttribute (parts.restrictions applied found)

end Schema

theorem FunctionDecl.located_check {decl : FunctionDecl} (within : decl.outline.IsWithin text)
    (schema : Schema) : Located text (decl.check schema) := by
  have parts := FunctionDecl.partsWithin within
  unfold check
  split
  next => exact Located.nil
  next body isBody =>
    have placed := parts.body body isBody
    simp only [Located.append, Located.reportIf]
    exact ⟨Expr.located_check placed _, fun _ => Expr.all_span placed⟩

end Schemata
