import Schemata.Schema.Hierarchy
import Schemata.Schema.SymbolTable

set_option autoImplicit false

namespace Schemata

structure Schema where
  symbols : SymbolTable
  hierarchy : Hierarchy
deriving Repr, Inhabited

namespace Schema

def ofDocument (document : Document) : Schema :=
  ⟨SymbolTable.ofDocument document, Hierarchy.ofModels document.models⟩

variable (schema : Schema)

def document : Document := schema.symbols.document

def fields (model : Model) : List VisibleField := schema.hierarchy.fields model.name.name

def attributes (model : Model) : List VisibleAttribute :=
  schema.hierarchy.attributes model.name.name

def field? (model : Model) (name : String) : Option VisibleField :=
  (schema.fields model).find? (·.name == name)

def typeOf (field : Field) : ResolvedType := schema.symbols.resolve field.type

/-- The name of the model whose records act as principals. -/
def principalName : String := "User"

def principal? : Option Model := schema.symbols.model? principalName

end Schema

/-- The field that an entry of a list of fields names: `a`, or `a(sort: Desc)`. -/
def Expr.fieldName? : Expr → Option Ident
  | .reference name _ => some name
  | .call name _ _ => some name
  | _ => none

def Attribute.fieldNames (applied : Attribute) : List String :=
  match applied.arguments.head?.map Argument.value with
  | some (.list items _) => (items.filterMap Expr.fieldName?).map Ident.name
  | _ => []

namespace Schema

variable (schema : Schema)

/--
The fields that tell the records of a model apart: those marked with `@id`, else those of `@@id`,
else the first one marked with `@unique`.
-/
def idFields (model : Model) : List Field :=
  let fields := schema.fields model
  let ids := fields.filter fun visible => visible.field.hasAttribute "@id"
  if !ids.isEmpty then ids.map VisibleField.field
  else
    match (schema.attributes model).find? (·.name == "@@id") with
    | some visible =>
        (visible.applied.fieldNames.filterMap (schema.field? model)).map VisibleField.field
    | none =>
        ((fields.find? fun visible => visible.field.hasAttribute "@unique").map
          VisibleField.field).toList

end Schema

end Schemata
