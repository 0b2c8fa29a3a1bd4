import Schemata.Proofs.Attribute.FieldLists

/-!
# Keys

A concrete model of a valid document has fields by which its records are told apart, and records are
compared by them. This takes keys that give their fields first, where their names are read.
-/

set_option autoImplicit false

namespace Schemata

structure Schema.IsKeyField (schema : Schema) (field : Field) : Prop where
  required : field.type.isOptional = false
  single : field.type.isList = false
  plain : (schema.typeOf field).isScalarOrEnum = true

/-- The name of a field that is marked as a key, or the names that a key of the model lists. -/
inductive Schema.IsCriterion (schema : Schema) (model : Model) : List String → Prop
  | field {visible : VisibleField} (seen : visible ∈ schema.fields model)
      (marked : (visible.field.hasAttribute "@id" || visible.field.hasAttribute "@unique") = true) :
      IsCriterion schema model [visible.name]
  | list {visible : VisibleAttribute} {value : Expr} (seen : visible ∈ schema.attributes model)
      (isKey : visible.name ∈ keyAttributes)
      (given : schema.argument? visible.applied "fields" = some value) :
      IsCriterion schema model (value.fieldItems.map fun item => item.field.name)

structure Schema.IsIdentity (schema : Schema) (model : Model) (fields : List Field) : Prop where
  criterion : schema.IsCriterion model (fields.map fun field => field.name.name)
  nonempty : fields ≠ []
  known : ∀ field ∈ fields, ∃ visible,
    schema.field? model field.name.name = some visible ∧ visible.field = field
  fit : ∀ field ∈ fields, schema.IsKeyField field

def Attribute.leadsWithFields (applied : Attribute) : Bool :=
  applied.arguments.head?.any fun argument => argument.name?.all (·.name == "fields")

/-- A field has `@id`, or `@@id` lists some fields first. Without both, `otherwise` decides. -/
def Schema.isKnown (schema : Schema) (model : Model) (otherwise : Bool) : Bool :=
  (schema.fields model).any (fun visible => visible.field.hasAttribute "@id") ||
    match (schema.attributes model).find? (·.name == "@@id") with
    | some visible => visible.applied.leadsWithFields && !visible.applied.fieldNames.isEmpty
    | none => otherwise

def Schema.leadsWithKeys (schema : Schema) (model : Model) : Bool :=
  schema.isKnown model
    (((schema.attributes model).filter (·.name == "@@unique")).all fun visible =>
      visible.applied.leadsWithFields)

/-- Records are compared by `@id`, by `@@id`, or by an `@unique` that comes first and is fit. -/
def Schema.comparesByKey (schema : Schema) (model : Model) : Bool :=
  schema.isKnown model
    (((schema.fields model).find? fun visible => visible.field.hasAttribute "@unique").any
      schema.isIdentifying)

namespace Schema

variable {schema : Schema} {model : Model}

theorem isKeyField_of_isIdentifying {visible : VisibleField}
    (fit : schema.isIdentifying visible = true) : schema.IsKeyField visible.field := by
  simp only [isIdentifying, Bool.and_eq_true, Bool.not_eq_true'] at fit
  exact ⟨fit.1.1, fit.1.2, fit.2⟩

theorem isKeyField_of_checkIdField {field : Field} (clean : Clean (schema.checkIdField field)) :
    schema.IsKeyField field := by
  unfold checkIdField at clean
  simp only at clean
  split at clean
  next => simp at clean
  next fit =>
    simp only [Bool.or_eq_true, Bool.not_eq_true', not_or, Bool.not_eq_true,
      Bool.not_eq_false] at fit
    exact ⟨Clean.reportIf_error.1 clean, fit.1, fit.2⟩

theorem isKeyField_of_checkKeyFields {applied : Attribute} {name : String} {visible : VisibleField}
    (clean : Clean (schema.checkKeyFields model applied)) (listed : name ∈ applied.fieldNames)
    (found : schema.field? model name = some visible) : schema.IsKeyField visible.field := by
  rw [checkKeyFields, Clean.flatMap] at clean
  have here := clean name listed
  simp only [found, Clean.reportIf_error, Bool.not_eq_false'] at here
  exact isKeyField_of_isIdentifying here

theorem isIdentity_of_field {document : Document} {model : Model} {visible : VisibleField}
    (seen : visible ∈ (ofDocument document).fields model)
    (marked : (visible.field.hasAttribute "@id" || visible.field.hasAttribute "@unique") = true)
    (fit : (ofDocument document).IsKeyField visible.field) :
    (ofDocument document).IsIdentity model [visible.field] where
  criterion := .field seen marked
  nonempty := List.cons_ne_nil _ _
  known := List.forall_mem_singleton.2 ⟨visible, field?_of_mem seen, rfl⟩
  fit := List.forall_mem_singleton.2 fit

theorem map_filterMap_field? {names : List String}
    (known : ∀ name ∈ names, ∃ visible, schema.field? model name = some visible) :
    ((names.filterMap (schema.field? model)).map VisibleField.field).map
      (fun field => field.name.name) = names := by
  induction names with
  | nil => rfl
  | cons name rest ih =>
    rcases List.forall_mem_cons.1 known with ⟨⟨visible, found⟩, others⟩
    have named : visible.name = name := by simpa using List.find?_some found
    simp only [List.filterMap_cons, found, List.map_cons, ih others]
    rw [← named, VisibleField.name]

theorem isIdentity_of_names {names : List String} (criterion : schema.IsCriterion model names)
    (nonempty : names ≠ [])
    (known : ∀ name ∈ names, ∃ visible, schema.field? model name = some visible)
    (fit : ∀ name ∈ names, ∀ visible, schema.field? model name = some visible →
      schema.IsKeyField visible.field) :
    schema.IsIdentity model ((names.filterMap (schema.field? model)).map VisibleField.field) := by
  have same := map_filterMap_field? known
  refine ⟨same.symm ▸ criterion, ?_, ?_, ?_⟩
  · intro empty
    rw [empty, List.map_nil] at same
    exact nonempty same.symm
  · simp only [List.forall_mem_map, List.forall_mem_filterMap]
    intro name listed visible found
    have named : visible.name = name := by simpa using List.find?_some found
    exact ⟨visible, by rwa [← named] at found, rfl⟩
  · simp only [List.forall_mem_map, List.forall_mem_filterMap]
    exact fit

end Schema

theorem Attribute.fieldNames_of_head {applied : Attribute} {items : List Expr} {span : Span}
    (first : applied.arguments.head?.map Argument.value = some (.list items span)) :
    applied.fieldNames = (Expr.list items span).fieldItems.map fun item => item.field.name := by
  rw [fieldNames, first, Expr.map_fieldItems_list]

namespace Schema

theorem argument?_of_leads {schema : Schema} {site : AttributeSite} {applied : Attribute}
    {decl : AttributeDecl} (clean : Clean (schema.checkAttribute site applied))
    (known : schema.symbols.attribute? applied.name.name = some decl)
    (params : decl.params = Library.keyParams) (leads : applied.leadsWithFields = true) :
    ∃ value, applied.arguments.head?.map Argument.value = some value ∧
      schema.argument? applied "fields" = some value := by
  rcases bind_of_checkAttribute clean known with ⟨bounds, isBound, _⟩
  unfold Attribute.leadsWithFields at leads
  cases arguments : applied.arguments with
  | nil => simp [arguments] at leads
  | cons argument rest =>
    rw [arguments, List.head?_cons, Option.any_some] at leads
    have suits : argument.suits (Library.byPosition "fields"
        (Library.list (Library.builtin .fieldReference))) = true := by
      unfold Argument.suits
      cases named : argument.name? with
      | none => rfl
      | some name =>
        rw [named, Option.all_some] at leads
        exact leads
    have value := Attribute.value?_of_head isBound params arguments suits
    refine ⟨argument.value, rfl, ?_⟩
    simp only [argument?, known, isBound, Except.toOption, Option.bind_eq_bind, Option.bind_some]
    exact value

variable {document : Document} {options : ValidationOptions} {model : Model}

theorem isCriterion_fieldNames (valid : (document.validate options).isValid = true)
    (member : model ∈ document.models) {visible : VisibleAttribute}
    (seen : visible ∈ (ofDocument document).attributes model)
    (isKey : visible.name ∈ keyAttributes) (leads : visible.applied.leadsWithFields = true) :
    (ofDocument document).IsCriterion model visible.applied.fieldNames ∧
      ∀ name ∈ visible.applied.fieldNames, ∃ field,
        (ofDocument document).field? model name = some field := by
  rcases document.declares_of_mem_attributes valid member seen with
    ⟨source, isSource, declared, shares⟩
  have clean := (document.clean_checkAttribute valid isSource).2 _ declared
  rcases attribute?_list document (mem_listAttributes isKey) with ⟨decl, known, params⟩
  rcases argument?_of_leads clean known params leads with ⟨value, first, given⟩
  have plain := isPlain_of_list (mem_listAttributes isKey)
  have lists := (listsFields_of_checkAttribute clean plain rfl known
    (takesFields_of_keyParams params) given).of_shared shares
  have names : visible.applied.fieldNames = value.fieldItems.map fun item => item.field.name := by
    rcases lists with ⟨items, span, rfl, _⟩
    exact Attribute.fieldNames_of_head first
  rw [names]
  exact ⟨.list seen isKey given, List.forall_mem_map.2 fun item listed => lists.field? listed⟩

theorem clean_checkIdentity (valid : (document.validate options).isValid = true)
    (member : model ∈ document.models) (concrete : model.isAbstract = false) :
    Clean ((ofDocument document).checkIdentity model) := by
  have clean := document.clean_checkModel valid member
  rw [checkModel, Clean.append, concrete] at clean
  exact clean.2

theorem isIdentity_of_idField (clean : Clean ((ofDocument document).checkIdentity model))
    {visible : VisibleField} {rest : List VisibleField}
    (ids : ((ofDocument document).fields model).filter
      (fun visible => visible.field.hasAttribute "@id") = visible :: rest) :
    (ofDocument document).IsIdentity model ((ofDocument document).idFields model) := by
  simp only [checkIdentity, ids, Clean.append, Clean.flatMap, Clean.reportIf_error,
    decide_eq_false_iff_not, List.length_cons] at clean
  have member : visible ∈ visible :: rest := List.mem_cons_self
  rcases List.mem_filter.1 (ids.symm ▸ member) with ⟨seen, isId⟩
  -- A second one would have been reported.
  have alone : rest = [] := List.eq_nil_of_length_eq_zero (by omega)
  have only : (ofDocument document).idFields model = [visible.field] := by simp [idFields, ids, alone]
  rw [only]
  exact isIdentity_of_field seen (by rw [isId, Bool.true_or])
    (isKeyField_of_checkIdField (clean.1.1.1.1.2 visible member))

theorem isIdentity_of_modelId (valid : (document.validate options).isValid = true)
    (member : model ∈ document.models) (concrete : model.isAbstract = false)
    (unmarked : ((ofDocument document).fields model).filter
      (fun visible => visible.field.hasAttribute "@id") = [])
    {visible : VisibleAttribute}
    (found : ((ofDocument document).attributes model).find? (·.name == "@@id") = some visible)
    (leads : visible.applied.leadsWithFields = true) (nonempty : visible.applied.fieldNames ≠ []) :
    (ofDocument document).IsIdentity model ((ofDocument document).idFields model) := by
  have clean := clean_checkIdentity valid member concrete
  simp only [checkIdentity, Clean.append, Clean.flatMap] at clean
  have seen := List.mem_of_find?_eq_some found
  have named : visible.name = "@@id" := by simpa using List.find?_some found
  have checked := clean.1.2 visible (List.mem_filter.2 ⟨seen, by simp [named]⟩)
  rcases isCriterion_fieldNames valid member seen (named ▸ List.mem_cons_self) leads with
    ⟨criterion, known⟩
  have listed : (ofDocument document).idFields model =
      (visible.applied.fieldNames.filterMap ((ofDocument document).field? model)).map
        VisibleField.field := by
    simp [idFields, unmarked, found]
  rw [listed]
  exact isIdentity_of_names criterion nonempty known
    fun name inside seen found => isKeyField_of_checkKeyFields checked inside found

theorem isIdentity_of_isKnown (valid : (document.validate options).isValid = true)
    (member : model ∈ document.models) (concrete : model.isAbstract = false) {otherwise : Bool}
    (isKnown : (ofDocument document).isKnown model otherwise = true) :
    (ofDocument document).IsIdentity model ((ofDocument document).idFields model) ∨
      ((ofDocument document).fields model).filter
          (fun visible => visible.field.hasAttribute "@id") = [] ∧
        ((ofDocument document).attributes model).find? (·.name == "@@id") = none ∧
        otherwise = true := by
  cases ids : ((ofDocument document).fields model).filter
      (fun visible => visible.field.hasAttribute "@id") with
  | cons visible rest =>
    exact .inl (isIdentity_of_idField (clean_checkIdentity valid member concrete) ids)
  | nil =>
    rw [Schema.isKnown, List.any_eq_false.2 (List.filter_eq_nil_iff.1 ids), Bool.false_or]
      at isKnown
    cases found : ((ofDocument document).attributes model).find? (·.name == "@@id") with
    | none =>
      rw [found] at isKnown
      exact .inr ⟨rfl, rfl, isKnown⟩
    | some visible =>
      simp only [found, Bool.and_eq_true, Bool.not_eq_true', List.isEmpty_eq_false_iff] at isKnown
      exact .inl (isIdentity_of_modelId valid member concrete ids found isKnown.1 isKnown.2)

theorem exists_isIdentity_of_hasUniqueKey (valid : (document.validate options).isValid = true)
    (member : model ∈ document.models)
    (hasKey : (ofDocument document).hasUniqueKey model = true)
    (leads : ∀ visible ∈ (ofDocument document).attributes model, visible.name = "@@unique" →
      visible.applied.leadsWithFields = true) :
    ∃ fields, (ofDocument document).IsIdentity model fields := by
  rw [hasUniqueKey, Bool.or_eq_true, List.any_eq_true, List.any_eq_true] at hasKey
  rcases hasKey with ⟨visible, seen, isUnique⟩ | ⟨visible, listed, isUnique⟩
  · rw [Bool.and_eq_true] at isUnique
    exact ⟨_, isIdentity_of_field seen (by rw [isUnique.1, Bool.or_true])
      (isKeyField_of_isIdentifying isUnique.2)⟩
  · rcases List.mem_filter.1 listed with ⟨seen, named⟩
    have isKey : visible.name ∈ keyAttributes := by
      rw [eq_of_beq named]
      decide
    rcases isCriterion_fieldNames valid member seen isKey (leads _ seen (eq_of_beq named)) with
      ⟨criterion, known⟩
    simp only [Bool.and_eq_true, Bool.not_eq_true', List.isEmpty_eq_false_iff, List.all_eq_true]
      at isUnique
    refine ⟨_, isIdentity_of_names criterion isUnique.1 known fun name inside field found => ?_⟩
    have fit := isUnique.2 name inside
    rw [found] at fit
    exact isKeyField_of_isIdentifying fit

end Schema

namespace Archive

open Library

def field (name : String) (type : TypeRef) (marks : List String) : Field :=
  ⟨ident name, type, marks.map fun mark => ⟨ident mark, [], Span.zero⟩, Span.zero⟩

/-- `[a, b]` -/
def fieldNames (names : List String) : Expr :=
  .list (names.map fun name => .reference (ident name) Span.zero) Span.zero

def room : EnumDecl :=
  ⟨ident "Room", ["MAPS", "PRINTS"].map fun name => ⟨ident name, [], Span.zero⟩, [], Span.zero⟩

def placed (key : Attribute) : Model :=
  ⟨ident "Placed", true, [], [field "room" (named "Room") [], field "number" int []], [key],
    Span.zero⟩

/-- The key is inherited. The label of its own is no key, being optional. -/
def print : Model :=
  ⟨ident "Print", false, [ident "Placed"], [field "label" (optional string) ["@unique"]], [],
    Span.zero⟩

/-- `@@unique([room, number])` or the same with `@@id` -/
def byPlace (name : String) : Attribute :=
  ⟨ident name, [.positional (fieldNames ["room", "number"])], Span.zero⟩

def prints (key : String) : Document :=
  ⟨[.enum room, .model (placed (byPlace key)), .model print]⟩

def tag : Model :=
  ⟨ident "Tag", false, [], [field "name" (optional string) []],
    [⟨ident "@@id", [.positional (fieldNames [])], Span.zero⟩], Span.zero⟩

def user : Model :=
  ⟨ident "User", false, [],
    [field "nickname" (optional string) ["@unique"], field "address" string ["@unique"]], [],
    Span.zero⟩

def tags : Document := ⟨[.model tag]⟩

def users : Document := ⟨[.model user]⟩

end Archive

variable {document : Document} {options : ValidationOptions} {model : Model}

open Schema

/-- The records of a concrete model can be told apart, in a valid document. -/
theorem Schema.exists_isIdentity (valid : (document.validate options).isValid = true)
    (member : model ∈ document.models) (concrete : model.isAbstract = false)
    (leads : (ofDocument document).leadsWithKeys model = true) :
    ∃ fields, (ofDocument document).IsIdentity model fields := by
  rcases isIdentity_of_isKnown valid member concrete leads with
    identity | ⟨noField, noModelId, leads⟩
  · exact ⟨_, identity⟩
  · have clean := clean_checkIdentity valid member concrete
    have noList : ((ofDocument document).attributes model).filter (·.name == "@@id") = [] :=
      List.filter_eq_nil_iff.2 (List.find?_eq_none.1 noModelId)
    simp only [checkIdentity, noField, noList, Clean.append, Clean.reportIf_error, List.isEmpty_nil,
      Bool.true_and, Bool.not_eq_false'] at clean
    refine exists_isIdentity_of_hasUniqueKey valid member clean.2 fun visible seen named => ?_
    exact List.all_eq_true.1 leads visible (List.mem_filter.2 ⟨seen, beq_of_eq named⟩)

theorem Archive.exists_isIdentity_print :
    ((prints "@@unique").validate .standard).isValid = true ∧
      print ∈ (prints "@@unique").models ∧ print.isAbstract = false ∧
      (Schema.ofDocument (prints "@@unique")).leadsWithKeys print = true ∧
      ∃ fields, (Schema.ofDocument (prints "@@unique")).IsIdentity print fields := by
  have valid : ((prints "@@unique").validate .standard).isValid = true := by decide +kernel
  have member : print ∈ (prints "@@unique").models := by simp [prints, Document.models]
  have leads : (Schema.ofDocument (prints "@@unique")).leadsWithKeys print = true := by
    decide +kernel
  exact ⟨valid, member, rfl, leads, Schema.exists_isIdentity valid member rfl leads⟩

/-- The key of a tag keeps the lack of an identity from being reported. -/
theorem Archive.not_isIdentity_tag :
    (tags.validate .standard).isValid = true ∧ tag ∈ tags.models ∧ tag.isAbstract = false ∧
      ¬ ∃ fields, (Schema.ofDocument tags).IsIdentity tag fields := by
  refine ⟨by decide +kernel, List.mem_singleton_self _, rfl, ?_⟩
  rintro ⟨fields, identity⟩
  have criterion := identity.criterion
  have unmarked : ((Schema.ofDocument tags).fields tag).all (fun visible =>
      !(visible.field.hasAttribute "@id" || visible.field.hasAttribute "@unique")) = true := by
    decide +kernel
  have unlisted : ((Schema.ofDocument tags).attributes tag).all (fun visible =>
      ((Schema.ofDocument tags).argument? visible.applied "fields").all
        fun value => value.fieldItems.isEmpty) = true := by
    decide +kernel
  generalize names : fields.map (fun field => field.name.name) = listed at criterion
  cases criterion with
  | field seen marked =>
    have here := List.all_eq_true.1 unmarked _ seen
    rw [marked] at here
    cases here
  | list seen isKey given =>
    have here := List.all_eq_true.1 unlisted _ seen
    rw [given, Option.all_some, List.isEmpty_iff] at here
    rw [here, List.map_nil, List.map_eq_nil_iff] at names
    exact identity.nonempty names

/-- Records of one model are compared by an identity of the model, in a valid document. -/
theorem Schema.isIdentity_idFields (valid : (document.validate options).isValid = true)
    (member : model ∈ document.models) (concrete : model.isAbstract = false)
    (compares : (ofDocument document).comparesByKey model = true) :
    (ofDocument document).IsIdentity model ((ofDocument document).idFields model) := by
  rcases isIdentity_of_isKnown valid member concrete compares with
    identity | ⟨noField, noModelId, isFit⟩
  · exact identity
  · cases first : ((ofDocument document).fields model).find?
        (fun visible => visible.field.hasAttribute "@unique") with
    | none => simp [first] at isFit
    | some visible =>
      rw [first, Option.any_some] at isFit
      have only : (ofDocument document).idFields model = [visible.field] := by
        simp [idFields, noField, noModelId, first]
      rw [only]
      exact isIdentity_of_field (List.mem_of_find?_eq_some first)
        (by rw [List.find?_some first, Bool.or_true]) (isKeyField_of_isIdentifying isFit)

theorem Archive.isIdentity_idFields_print :
    ((prints "@@id").validate .standard).isValid = true ∧ print ∈ (prints "@@id").models ∧
      print.isAbstract = false ∧ (Schema.ofDocument (prints "@@id")).comparesByKey print = true ∧
      (Schema.ofDocument (prints "@@id")).IsIdentity print
        ((Schema.ofDocument (prints "@@id")).idFields print) := by
  have valid : ((prints "@@id").validate .standard).isValid = true := by decide +kernel
  have member : print ∈ (prints "@@id").models := by simp [prints, Document.models]
  have compares : (Schema.ofDocument (prints "@@id")).comparesByKey print = true := by
    decide +kernel
  exact ⟨valid, member, rfl, compares, Schema.isIdentity_idFields valid member rfl compares⟩

/-- Users are compared by their nicknames, though their addresses are the only key. -/
theorem Archive.not_isIdentity_idFields_user :
    (users.validate .standard).isValid = true ∧ user ∈ users.models ∧
      user.isAbstract = false ∧
      (∃ fields, (Schema.ofDocument users).IsIdentity user fields) ∧
      ¬ (Schema.ofDocument users).IsIdentity user
        ((Schema.ofDocument users).idFields user) := by
  have nickname : ((Schema.ofDocument users).idFields user).any
      (fun field => field.type.isOptional) = true := by decide +kernel
  refine ⟨by decide +kernel, List.mem_singleton_self _, rfl, ?_, fun identity => ?_⟩
  · have seen : ((Schema.ofDocument users).fields user)[1]? =
        some ⟨field "address" Library.string ["@unique"], "User", false, false⟩ := rfl
    exact ⟨_, Schema.isIdentity_of_field (List.mem_of_getElem? seen) rfl ⟨rfl, rfl, rfl⟩⟩
  · rcases List.any_eq_true.1 nickname with ⟨field, listed, isOptional⟩
    rw [(identity.fit field listed).required] at isOptional
    cases isOptional

end Schemata
