import Schemata.Syntax.Expr
import Schemata.Syntax.TypeRef

set_option autoImplicit false

namespace Schemata

/-- The application of an attribute. The name includes its leading `@` signs. -/
structure Attribute where
  name : Ident
  arguments : List Argument
  span : Span
deriving Repr, Inhabited

namespace Attribute

instance : BEq Attribute :=
  ⟨fun left right => left.name == right.name && left.arguments == right.arguments⟩

def isModelLevel (applied : Attribute) : Bool := applied.name.name.startsWith "@@"

def erase (applied : Attribute) : Attribute :=
  ⟨applied.name.erase, applied.arguments.map Argument.erase, Span.zero⟩

end Attribute

def Attribute.find? (attributes : List Attribute) (name : String) : Option Attribute :=
  attributes.find? (·.name.name == name)

structure ConfigEntry where
  name : Ident
  value : Expr
  span : Span
deriving Repr, Inhabited

instance : BEq ConfigEntry :=
  ⟨fun left right => left.name == right.name && left.value == right.value⟩

def ConfigEntry.erase (entry : ConfigEntry) : ConfigEntry :=
  ⟨entry.name.erase, entry.value.erase, Span.zero⟩

structure ConfigBlock where
  name : Ident
  entries : List ConfigEntry
  span : Span
deriving Repr, Inhabited

namespace ConfigBlock

instance : BEq ConfigBlock :=
  ⟨fun left right => left.name == right.name && left.entries == right.entries⟩

def entry? (block : ConfigBlock) (name : String) : Option ConfigEntry :=
  block.entries.find? (·.name.name == name)

def erase (block : ConfigBlock) : ConfigBlock :=
  ⟨block.name.erase, block.entries.map ConfigEntry.erase, Span.zero⟩

end ConfigBlock

structure EnumMember where
  name : Ident
  attributes : List Attribute
  span : Span
deriving Repr, Inhabited

instance : BEq EnumMember :=
  ⟨fun left right => left.name == right.name && left.attributes == right.attributes⟩

def EnumMember.erase (enumMember : EnumMember) : EnumMember :=
  ⟨enumMember.name.erase, enumMember.attributes.map Attribute.erase, Span.zero⟩

structure EnumDecl where
  name : Ident
  members : List EnumMember
  attributes : List Attribute
  span : Span
deriving Repr, Inhabited

namespace EnumDecl

instance : BEq EnumDecl :=
  ⟨fun left right =>
    left.name == right.name && left.members == right.members &&
      left.attributes == right.attributes⟩

def member? (decl : EnumDecl) (name : String) : Option EnumMember :=
  decl.members.find? (·.name.name == name)

def erase (decl : EnumDecl) : EnumDecl :=
  ⟨decl.name.erase, decl.members.map EnumMember.erase, decl.attributes.map Attribute.erase,
    Span.zero⟩

end EnumDecl

structure Field where
  name : Ident
  type : TypeRef
  attributes : List Attribute
  span : Span
deriving Repr, Inhabited

namespace Field

instance : BEq Field :=
  ⟨fun left right =>
    left.name == right.name && left.type == right.type && left.attributes == right.attributes⟩

def attribute? (field : Field) (name : String) : Option Attribute :=
  Attribute.find? field.attributes name

def hasAttribute (field : Field) (name : String) : Bool :=
  (field.attribute? name).isSome

def erase (field : Field) : Field :=
  ⟨field.name.erase, field.type.erase, field.attributes.map Attribute.erase, Span.zero⟩

end Field

structure Model where
  name : Ident
  isAbstract : Bool
  bases : List Ident
  fields : List Field
  attributes : List Attribute
  span : Span
deriving Repr, Inhabited

namespace Model

instance : BEq Model :=
  ⟨fun left right =>
    left.name == right.name && left.isAbstract == right.isAbstract && left.bases == right.bases &&
      left.fields == right.fields && left.attributes == right.attributes⟩

def field? (model : Model) (name : String) : Option Field :=
  model.fields.find? (·.name.name == name)

def hasAttribute (model : Model) (name : String) : Bool :=
  model.attributes.any (·.name.name == name)

def erase (model : Model) : Model :=
  ⟨model.name.erase, model.isAbstract, model.bases.map Ident.erase, model.fields.map Field.erase,
    model.attributes.map Attribute.erase, Span.zero⟩

end Model

structure FunctionParam where
  name : Ident
  type : TypeRef
deriving Repr, Inhabited

instance : BEq FunctionParam :=
  ⟨fun left right => left.name == right.name && left.type == right.type⟩

def FunctionParam.erase (param : FunctionParam) : FunctionParam :=
  ⟨param.name.erase, param.type.erase⟩

structure FunctionDecl where
  name : Ident
  params : List FunctionParam
  result : TypeRef
  body : Option Expr
  span : Span
deriving Repr, Inhabited

namespace FunctionDecl

instance : BEq FunctionDecl :=
  ⟨fun left right =>
    left.name == right.name && left.params == right.params && left.result == right.result &&
      left.body == right.body⟩

def erase (decl : FunctionDecl) : FunctionDecl :=
  ⟨decl.name.erase, decl.params.map FunctionParam.erase, decl.result.erase,
    decl.body.map Expr.erase, Span.zero⟩

end FunctionDecl

structure AttributeParam where
  name : Ident
  type : TypeRef
  isPositional : Bool
deriving Repr, Inhabited

namespace AttributeParam

instance : BEq AttributeParam :=
  ⟨fun left right =>
    left.name == right.name && left.type == right.type && left.isPositional == right.isPositional⟩

def isRequired (param : AttributeParam) : Bool := !param.type.isOptional

def erase (param : AttributeParam) : AttributeParam :=
  ⟨param.name.erase, param.type.erase, param.isPositional⟩

end AttributeParam

structure AttributeDecl where
  name : Ident
  params : List AttributeParam
  restrictions : List Attribute
  span : Span
deriving Repr, Inhabited

namespace AttributeDecl

instance : BEq AttributeDecl :=
  ⟨fun left right =>
    left.name == right.name && left.params == right.params &&
      left.restrictions == right.restrictions⟩

def restriction? (decl : AttributeDecl) (name : String) : Option Attribute :=
  Attribute.find? decl.restrictions name

def erase (decl : AttributeDecl) : AttributeDecl :=
  ⟨decl.name.erase, decl.params.map AttributeParam.erase, decl.restrictions.map Attribute.erase,
    Span.zero⟩

end AttributeDecl

inductive Declaration
  | dataSource (block : ConfigBlock)
  | plugin (block : ConfigBlock)
  | enum (decl : EnumDecl)
  | model (decl : Model)
  | function (decl : FunctionDecl)
  | attr (decl : AttributeDecl)
deriving Repr, BEq, Inhabited

namespace Declaration

def name : Declaration → Ident
  | .dataSource block | .plugin block => block.name
  | .enum decl => decl.name
  | .model decl => decl.name
  | .function decl => decl.name
  | .attr decl => decl.name

def keyword : Declaration → String
  | .dataSource _ => "datasource"
  | .plugin _ => "plugin"
  | .enum _ => "enum"
  | .model _ => "model"
  | .function _ => "function"
  | .attr _ => "attribute"

def erase : Declaration → Declaration
  | .dataSource block => .dataSource block.erase
  | .plugin block => .plugin block.erase
  | .enum decl => .enum decl.erase
  | .model decl => .model decl.erase
  | .function decl => .function decl.erase
  | .attr decl => .attr decl.erase

end Declaration

structure Document where
  declarations : List Declaration
deriving Repr, BEq, Inhabited

namespace Document

def models (document : Document) : List Model :=
  document.declarations.filterMap fun
    | .model decl => some decl
    | _ => none

def enums (document : Document) : List EnumDecl :=
  document.declarations.filterMap fun
    | .enum decl => some decl
    | _ => none

def functions (document : Document) : List FunctionDecl :=
  document.declarations.filterMap fun
    | .function decl => some decl
    | _ => none

def attributeDecls (document : Document) : List AttributeDecl :=
  document.declarations.filterMap fun
    | .attr decl => some decl
    | _ => none

def model? (document : Document) (name : String) : Option Model :=
  document.models.find? (·.name.name == name)

def erase (document : Document) : Document :=
  ⟨document.declarations.map Declaration.erase⟩

end Document

end Schemata
