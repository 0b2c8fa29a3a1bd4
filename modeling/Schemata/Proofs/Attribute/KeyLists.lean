import Schemata.Proofs.Schema.Keys

/-!
# Lists of keys

The fields of a key are read off its first argument, and off the argument that is bound to the
parameter for them. Both readings are the same if the first argument is for that parameter. A key
that gives something else first is read as one without fields.
-/

set_option autoImplicit false

namespace Schemata

inductive Document.Applies (document : Document) : AttributeSite → Attribute → Prop
  | field {model : Model} {field : Field} {applied : Attribute} (member : model ∈ document.models)
      (declared : field ∈ model.fields) (listed : applied ∈ field.attributes) :
      Applies document (.field model field) applied
  | model {model : Model} {applied : Attribute} (member : model ∈ document.models)
      (listed : applied ∈ model.attributes) : Applies document (.model model) applied
  | enumMember {decl : EnumDecl} {enumMember : EnumMember} {applied : Attribute}
      (member : decl ∈ document.enums) (declared : enumMember ∈ decl.members)
      (listed : applied ∈ enumMember.attributes) : Applies document .detached applied
  | enum {decl : EnumDecl} {applied : Attribute} (member : decl ∈ document.enums)
      (listed : applied ∈ decl.attributes) : Applies document .detached applied
  | restriction {decl : AttributeDecl} {applied : Attribute}
      (member : decl ∈ document.attributeDecls) (listed : applied ∈ decl.restrictions) :
      Applies document .detached applied

def Expr.listedNames (value : Expr) : List String :=
  value.fieldItems.map fun item => item.field.name

variable {document : Document} {options : ValidationOptions} {site : AttributeSite}
  {applied : Attribute}

theorem Document.Applies.clean_of_checkAttributes (applies : document.Applies site applied)
    (clean : Clean (Schema.ofDocument document).checkAttributes) :
    Clean ((Schema.ofDocument document).checkAttribute site applied) := by
  simp only [Schema.checkAttributes, Schema.checkModelAttributes, Schema.checkEnumAttributes,
    Clean.append, Clean.flatMap] at clean
  obtain ⟨⟨models, enums⟩, restrictions⟩ := clean
  cases applies with
  | field member declared listed => exact (models _ member).1 _ declared _ listed
  | model member listed => exact (models _ member).2 _ listed
  | enumMember member declared listed => exact (enums _ member).1 _ declared _ listed
  | enum member listed => exact (enums _ member).2 _ listed
  | restriction member listed => exact restrictions _ member _ listed

theorem Document.Applies.clean (applies : document.Applies site applied)
    (valid : (document.validate options).isValid = true) :
    Clean ((Schema.ofDocument document).checkAttribute site applied) :=
  applies.clean_of_checkAttributes (document.clean_of_isValid valid .attributes)

namespace Schema

variable {schema : Schema} {decl : AttributeDecl}

theorem exists_fields_of_checkAttribute (clean : Clean (schema.checkAttribute site applied))
    (known : schema.symbols.attribute? applied.name.name = some decl)
    (params : decl.params = Library.keyParams) :
    ∃ value, schema.argument? applied "fields" = some value := by
  obtain ⟨bounds, isBound, _⟩ := bind_of_checkAttribute clean known
  have declared : Library.byPosition "fields" (Library.list (Library.builtin .fieldReference)) ∈
      decl.params := by
    rw [params]
    exact List.mem_cons_self
  obtain ⟨value, given⟩ := Attribute.value?_of_bind isBound declared rfl
  refine ⟨value, ?_⟩
  simp only [argument?, known, isBound, Except.toOption, Option.bind_eq_bind, Option.bind_some]
  exact given

theorem list_of_checkAttribute (clean : Clean (schema.checkAttribute site applied))
    (plain : isPlain applied = true)
    (known : schema.symbols.attribute? applied.name.name = some decl)
    (params : decl.params = Library.keyParams) {value : Expr}
    (given : schema.argument? applied "fields" = some value) :
    ∃ items span, value = .list items span := by
  obtain ⟨bound, listed, named, rfl, cleanValue⟩ := clean_checkValue clean plain known given
  obtain ⟨isList, kind⟩ := takesFields_of_keyParams params bound.param listed named
  simp only [checkValue, kind, checkFieldReferences, fieldEntries?, isList, if_true] at cleanValue
  cases isValue : bound.value with
  | list items span => exact ⟨items, span, rfl⟩
  | _ => simp [isValue, notAssignable] at cleanValue

end Schema

open Schema

theorem Schema.fieldNames_of_leads
    (clean : Clean ((ofDocument document).checkAttribute site applied))
    (lists : applied.name.name ∈ listAttributes) (leads : applied.leadsWithFields = true)
    {value : Expr} (given : (ofDocument document).argument? applied "fields" = some value) :
    applied.fieldNames = value.listedNames := by
  obtain ⟨decl, known, params⟩ := attribute?_list document lists
  have plain : isPlain applied = true := isPlain_of_list lists
  obtain ⟨items, span, rfl⟩ := list_of_checkAttribute clean plain known params given
  obtain ⟨first, head, givenFirst⟩ := argument?_of_leads clean known params leads
  cases Option.some.inj (given.symm.trans givenFirst)
  exact Attribute.fieldNames_of_head head

/-- A key that gives its fields first is read as it is bound, wherever it stands. -/
theorem Document.fieldNames_eq_listedNames (valid : (document.validate options).isValid = true)
    (applies : document.Applies site applied) (lists : applied.name.name ∈ listAttributes) :
    ∃ value, (ofDocument document).argument? applied "fields" = some value ∧
      (applied.leadsWithFields = true → applied.fieldNames = value.listedNames) := by
  have clean := applies.clean valid
  obtain ⟨decl, known, params⟩ := attribute?_list document lists
  obtain ⟨value, given⟩ := exists_fields_of_checkAttribute clean known params
  exact ⟨value, given, fun leads => fieldNames_of_leads clean lists leads given⟩

namespace Theatre

open Library

def place : Expr := Archive.fieldNames ["row", "number"]

def map : Argument := .named (ident "map") (.literal (.string "seat_key") Span.zero)

def seat (key : Attribute) : Model :=
  ⟨ident "Seat", false, [],
    [Archive.field "id" int ["@id"], Archive.field "row" int [], Archive.field "number" int []],
    [key], Span.zero⟩

def seats (key : Attribute) : Document := ⟨[.model (seat key)]⟩

/-- `@@unique([row, number], map: "seat_key")` -/
def fieldsFirst : Attribute := ⟨ident "@@unique", [.positional place, map], Span.zero⟩

/-- `@@unique(map: "seat_key", fields: [row, number])` -/
def mapFirst : Attribute :=
  ⟨ident "@@unique", [map, .named (ident "fields") place], Span.zero⟩

theorem applies (key : Attribute) : (seats key).Applies (.model (seat key)) key :=
  .model (List.mem_singleton_self _) (List.mem_singleton_self _)

theorem fieldNames_fieldsFirst :
    ((seats fieldsFirst).validate .standard).isValid = true ∧
      (seats fieldsFirst).Applies (.model (seat fieldsFirst)) fieldsFirst ∧
      fieldsFirst.name.name ∈ listAttributes ∧ fieldsFirst.leadsWithFields = true ∧
      ∃ value, (Schema.ofDocument (seats fieldsFirst)).argument? fieldsFirst "fields" = some value ∧
        fieldsFirst.fieldNames = value.listedNames := by
  have valid : ((seats fieldsFirst).validate .standard).isValid = true := by decide +kernel
  have lists : fieldsFirst.name.name ∈ listAttributes := by decide
  obtain ⟨value, given, same⟩ :=
    Document.fieldNames_eq_listedNames valid (applies fieldsFirst) lists
  exact ⟨valid, applies fieldsFirst, lists, rfl, value, given, same rfl⟩

/-- The place of a seat is bound to the key, which is read as one without fields. -/
theorem fieldNames_mapFirst :
    ((seats mapFirst).validate .standard).isValid = true ∧
      (seats mapFirst).Applies (.model (seat mapFirst)) mapFirst ∧
      mapFirst.name.name ∈ listAttributes ∧
      ¬ ∃ value, (Schema.ofDocument (seats mapFirst)).argument? mapFirst "fields" = some value ∧
        mapFirst.fieldNames = value.listedNames := by
  refine ⟨by decide +kernel, applies mapFirst, by decide, ?_⟩
  rintro ⟨value, given, same⟩
  have known : (Schema.ofDocument (seats mapFirst)).argument? mapFirst "fields" = some place := rfl
  cases Option.some.inj (known.symm.trans given)
  exact absurd same (by decide)

end Theatre

end Schemata
