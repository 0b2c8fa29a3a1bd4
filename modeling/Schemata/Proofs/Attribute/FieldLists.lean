import Schemata.Proofs.Policy.Rules
import Schemata.Proofs.Schema.SharedFields

set_option autoImplicit false

namespace Schemata

@[simp] theorem Expr.map_fieldItem? (entry : Expr) :
    entry.fieldItem?.map FieldItem.field = entry.fieldName? := by
  cases entry <;> rfl

theorem Expr.map_fieldItems_list (items : List Expr) (span : Span) :
    (Expr.list items span).fieldItems.map (fun item => item.field.name) =
      (items.filterMap fieldName?).map Ident.name := by
  simp only [fieldItems, List.map_filterMap, ← map_fieldItem?, Option.map_map, Function.comp_def]

def Schema.ListsFields (schema : Schema) (model : Model) (value : Expr) : Prop :=
  ∃ items span, value = .list items span ∧
    ∀ item ∈ items, ∃ name visible, item.fieldName? = some name ∧
      schema.field? model name.name = some visible

theorem Schema.ListsFields.field? {schema : Schema} {model : Model} {value : Expr}
    (lists : schema.ListsFields model value) {item : FieldItem} (listed : item ∈ value.fieldItems) :
    ∃ visible, schema.field? model item.field.name = some visible := by
  rcases lists with ⟨items, span, rfl, named⟩
  rcases List.mem_filterMap.1 listed with ⟨entry, member, found⟩
  rcases named entry member with ⟨name, visible, isName, known⟩
  have same : some item.field = some name := by rw [← isName, ← Expr.map_fieldItem?, found]; rfl
  exact ⟨visible, Option.some.inj same ▸ known⟩

theorem Schema.ListsFields.of_shared {schema : Schema} {base model : Model} {value : Expr}
    (lists : schema.ListsFields base value) (shares : schema.SharesFields base model) :
    schema.ListsFields model value := by
  rcases lists with ⟨items, span, same, named⟩
  refine ⟨items, span, same, fun item member => ?_⟩
  rcases named item member with ⟨name, visible, isName, known⟩
  rcases shares _ _ known with ⟨other, found, _⟩
  exact ⟨name, other, isName, found⟩

/-- Every parameter of that name is for fields, of the kind that tells which model's they are. -/
def AttributeDecl.TakesFields (decl : AttributeDecl) (name : String) (kind : Builtin) : Prop :=
  ∀ param ∈ decl.params, param.name.name = name →
    param.type.isList = true ∧ param.type.name = .builtin kind

namespace Schema

variable {schema : Schema} {document : Document} {applied : Attribute} {decl : AttributeDecl}
  {bounds : List Bound} {bound : Bound} {model : Model} {site : AttributeSite} {value : Expr}
  {name : String}

theorem listsFields_of_checkFieldReferences
    (clean : Clean (schema.checkFieldReferences (some model) applied bound))
    (isList : bound.param.type.isList = true) : schema.ListsFields model bound.value := by
  unfold checkFieldReferences fieldEntries? at clean
  simp only [isList, if_true] at clean
  cases given : bound.value with
  | list items span =>
    refine ⟨items, span, rfl, fun item member => ?_⟩
    simp only [given, Clean.flatMap] at clean
    have entry := clean item member
    unfold checkFieldEntry at entry
    cases named : item.fieldName? with
    | none => simp [named, notAssignable] at entry
    | some name =>
      simp only [named, Clean.append, Clean.reportIf_unresolved, Option.isNone_eq_false_iff]
        at entry
      rcases Option.isSome_iff_exists.1 entry.1 with ⟨visible, known⟩
      exact ⟨name, visible, rfl, known⟩
  | _ => simp [given, notAssignable] at clean

theorem bound_of_argument? (declared : schema.symbols.attribute? applied.name.name = some decl)
    (isBound : applied.bind decl = .ok bounds) (given : schema.argument? applied name = some value) :
    ∃ bound ∈ bounds, bound.param ∈ decl.params ∧ bound.param.name.name = name ∧
      bound.value = value := by
  simp only [argument?, declared, isBound, Except.toOption, Option.bind_eq_bind, Option.bind_some]
    at given
  rcases Option.map_eq_some_iff.1 given with ⟨bound, found, rfl⟩
  refine ⟨bound, List.mem_of_find?_eq_some found, ?_, by simpa using List.find?_some found, rfl⟩
  rcases Attribute.slots_of_bind isBound with ⟨slots, params, rfl, _, _⟩
  rcases List.mem_filterMap.1 (List.mem_of_find?_eq_some found) with ⟨slot, listed, taken⟩
  rcases Option.map_eq_some_iff.1 taken with ⟨argument, _, rfl⟩
  exact params ▸ List.mem_map_of_mem listed

/-- Attributes that are checked value by value, and not as rules or as delegates. -/
def isPlain (applied : Attribute) : Bool :=
  !policyAttributes.contains applied.name.name && applied.name.name != "@@delegate"

theorem clean_checkValue (clean : Clean (schema.checkAttribute site applied))
    (plain : isPlain applied = true)
    (declared : schema.symbols.attribute? applied.name.name = some decl)
    (given : schema.argument? applied name = some value) :
    ∃ bound, bound.param ∈ decl.params ∧ bound.param.name.name = name ∧ bound.value = value ∧
      Clean (schema.checkValue site applied bound) := by
  rcases bind_of_checkAttribute clean declared with ⟨bounds, isBound, cleanBound⟩
  rcases bound_of_argument? declared isBound given with ⟨bound, listed, known, named, same⟩
  simp only [isPlain, Bool.and_eq_true, Bool.not_eq_true', bne_iff_ne] at plain
  rw [checkBound, plain.1, if_neg Bool.false_ne_true, if_neg plain.2, Clean.flatMap] at cleanBound
  exact ⟨bound, known, named, same, cleanBound bound listed⟩

theorem listsFields_of_checkAttribute (clean : Clean (schema.checkAttribute site applied))
    (plain : isPlain applied = true) (owner : site.model? = some model)
    (declared : schema.symbols.attribute? applied.name.name = some decl)
    (takes : decl.TakesFields name .fieldReference)
    (given : schema.argument? applied name = some value) : schema.ListsFields model value := by
  rcases clean_checkValue clean plain declared given with ⟨bound, known, named, rfl, cleanValue⟩
  rcases takes bound.param known named with ⟨isList, kind⟩
  simp only [checkValue, kind, owner] at cleanValue
  exact listsFields_of_checkFieldReferences cleanValue isList

theorem listsFields_of_checkRelation {field : Field} {target : Model}
    (clean : Clean (schema.checkAttribute (.field model field) applied))
    (plain : isPlain applied = true) (isModel : schema.typeOf field = .model target)
    (declared : schema.symbols.attribute? applied.name.name = some decl)
    (takes : decl.TakesFields name .transitiveFieldReference)
    (given : schema.argument? applied name = some value) : schema.ListsFields target value := by
  rcases clean_checkValue clean plain declared given with ⟨bound, known, named, rfl, cleanValue⟩
  rcases takes bound.param known named with ⟨isList, kind⟩
  simp only [checkValue, kind, AttributeSite.field?, Option.bind_some, isModel,
    ResolvedType.model?] at cleanValue
  exact listsFields_of_checkFieldReferences cleanValue isList

end Schema

theorem SymbolTable.attribute?_of_library {document : Document} {name : String}
    {decl : AttributeDecl} (found : find? librarySymbols name = some ⟨.attr decl, .library⟩) :
    (ofDocument document).attribute? name = some decl := by
  rw [SymbolTable.attribute?, SymbolTable.declaration?, symbol?_of_library found]
  rfl

theorem attribute?_relation (document : Document) :
    ∃ decl, (SymbolTable.ofDocument document).attribute? "@relation" = some decl ∧
      decl.TakesFields "fields" .fieldReference ∧
      decl.TakesFields "references" .transitiveFieldReference := by
  refine ⟨_, SymbolTable.attribute?_of_library rfl, ?_, ?_⟩ <;>
    simp [AttributeDecl.TakesFields, Library.byName, Library.byPosition, Library.ident,
      Library.optional, Library.list, Library.builtin]

def listAttributes : List String := ["@@id", "@@unique", "@@index"]

def keyAttributes : List String := ["@@id", "@@unique"]

theorem mem_listAttributes {name : String} (isKey : name ∈ keyAttributes) :
    name ∈ listAttributes :=
  List.mem_of_mem_take (i := 2) isKey

theorem attribute?_list (document : Document) {name : String} (lists : name ∈ listAttributes) :
    ∃ decl, (SymbolTable.ofDocument document).attribute? name = some decl ∧
      decl.params = Library.keyParams := by
  simp only [listAttributes, List.mem_cons, List.not_mem_nil, or_false] at lists
  rcases lists with rfl | rfl | rfl <;> exact ⟨_, SymbolTable.attribute?_of_library rfl, rfl⟩

theorem Schema.isPlain_of_list {applied : Attribute}
    (lists : applied.name.name ∈ listAttributes) : isPlain applied = true := by
  rw [isPlain]
  simp only [listAttributes, List.mem_cons, List.not_mem_nil, or_false] at lists
  rcases lists with named | named | named <;> rw [named] <;> decide

theorem takesFields_of_keyParams {decl : AttributeDecl} (params : decl.params = Library.keyParams) :
    decl.TakesFields "fields" .fieldReference := by
  simp [AttributeDecl.TakesFields, params, Library.keyParams, Library.byName, Library.byPosition,
    Library.ident, Library.list, Library.builtin]

end Schemata
