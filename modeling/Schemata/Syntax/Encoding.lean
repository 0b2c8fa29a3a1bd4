import Schemata.Json.Basic
import Schemata.Syntax.Document

set_option autoImplicit false

namespace Schemata

namespace Json

def named? {α : Type} (values : List α) (name : α → String) (json : Json) : Option α :=
  match json with
  | .string text => values.find? fun value => name value == text
  | _ => none

def listOf? {α : Type} (item? : Json → Option α) (json : Json) : Option (List α) :=
  match json with
  | .array items => items.mapM item?
  | _ => none

def field? {α : Type} (json : Json) (name : String) (decode? : Json → Option α) : Option α :=
  (json.member? name).bind decode?

end Json

namespace Span

def toJson (span : Span) : Json :=
  .object [("start", .int span.start), ("end", .int span.stop)]

def ofJson? (json : Json) : Option Span := do
  some ⟨← json.field? "start" Json.nat?, ← json.field? "end" Json.nat?⟩

end Span

namespace Ident

def toJson (ident : Ident) : Json :=
  .object [("name", .string ident.name), ("span", ident.span.toJson)]

def ofJson? (json : Json) : Option Ident := do
  some ⟨← json.field? "name" Json.string?, ← json.field? "span" Span.ofJson?⟩

end Ident

namespace TypeName

def toJson : TypeName → Json
  | .scalar kind => .object [("tag", .string "scalar"), ("value", .string kind.name)]
  | .builtin kind => .object [("tag", .string "builtin"), ("value", .string kind.name)]
  | .unsupported text => .object [("tag", .string "unsupported"), ("value", .string text)]
  | .named name => .object [("tag", .string "named"), ("value", name.toJson)]

def ofJson? (json : Json) : Option TypeName := do
  let value ← json.member? "value"
  match ← json.field? "tag" Json.string? with
  | "scalar" => (value.named? Scalar.all Scalar.name).map .scalar
  | "builtin" => (value.named? Builtin.all Builtin.name).map .builtin
  | "unsupported" => value.string?.map .unsupported
  | "named" => (Ident.ofJson? value).map .named
  | _ => none

end TypeName

namespace TypeRef

def toJson (type : TypeRef) : Json :=
  .object [("name", type.name.toJson), ("is_array", .bool type.isList),
    ("is_optional", .bool type.isOptional), ("span", type.span.toJson)]

def ofJson? (json : Json) : Option TypeRef := do
  some ⟨← json.field? "name" TypeName.ofJson?, ← json.field? "is_array" Json.bool?,
    ← json.field? "is_optional" Json.bool?, ← json.field? "span" Span.ofJson?⟩

end TypeRef

namespace UnaryOp

def jsonName : UnaryOp → String
  | .not => "Not"
  | .negate => "Negate"

end UnaryOp

namespace BinaryOp

def jsonName : BinaryOp → String
  | .mul => "Mul"
  | .div => "Div"
  | .add => "Add"
  | .sub => "Sub"
  | .lt => "Lt"
  | .le => "Le"
  | .gt => "Gt"
  | .ge => "Ge"
  | .eq => "Eq"
  | .ne => "Ne"
  | .and => "And"
  | .or => "Or"

end BinaryOp

namespace Quantifier

def jsonName : Quantifier → String
  | .any => "Some"
  | .all => "Every"
  | .none => "None"

end Quantifier

namespace Literal

def toJson : Literal → Json
  | .string text => .object [("literal", .string "string"), ("value", .string text)]
  | .number text => .object [("literal", .string "number"), ("value", .string text)]
  | .boolean value => .object [("literal", .string "boolean"), ("value", .bool value)]
  | .null => .object [("literal", .string "null")]

def ofJson? (json : Json) : Option Literal := do
  match ← json.field? "literal" Json.string? with
  | "string" => (← json.member? "value").string?.map .string
  | "number" => (← json.member? "value").string?.map .number
  | "boolean" => (← json.member? "value").bool?.map .boolean
  | "null" => some .null
  | _ => none

end Literal

def Expr.node (tag : String) (data : Option Json) (span : Span) : Json :=
  .object [
    ("kind", .object (("expr", .string tag) :: (data.map fun data => ("data", data)).toList)),
    ("span", span.toJson)]

mutual

def Expr.toJson : Expr → Json
  | .literal value span => Expr.node "literal" (some value.toJson) span
  | .this span => Expr.node "this" none span
  | .reference name span => Expr.node "reference" (some name.toJson) span
  | .access object name span =>
      Expr.node "member_access"
        (some (.object [("object", object.toJson), ("member", name.toJson)])) span
  | .unary op operand span =>
      Expr.node "unary"
        (some (.object [("op", .string op.jsonName), ("operand", operand.toJson)])) span
  | .binary op left right span =>
      Expr.node "binary"
        (some (.object [("op", .string op.jsonName), ("left", left.toJson),
          ("right", right.toJson)])) span
  | .call function arguments span =>
      Expr.node "invocation"
        (some (.object [("function", function.toJson),
          ("args", .array (Argument.toJsons arguments))])) span
  | .list items span => Expr.node "array" (some (.array (Expr.toJsons items))) span
  | .quantified collection quantifier condition span =>
      Expr.node "collection_predicate"
        (some (.object [("collection", collection.toJson),
          ("quantifier", .string quantifier.jsonName), ("condition", condition.toJson)])) span

def Argument.toJson : Argument → Json
  | .positional value => .object [("kind", .string "positional"), ("value", value.toJson)]
  | .named name value =>
      .object [("kind", .string "named"), ("name", name.toJson), ("value", value.toJson)]

def Expr.toJsons : List Expr → List Json
  | [] => []
  | item :: rest => item.toJson :: Expr.toJsons rest

def Argument.toJsons : List Argument → List Json
  | [] => []
  | argument :: rest => argument.toJson :: Argument.toJsons rest

end

def Json.depth : Json → Nat
  | .array items => depthAll items + 1
  | .object members => depthMembers members + 1
  | _ => 0
where
  depthAll : List Json → Nat
    | [] => 0
    | item :: rest => max item.depth (depthAll rest)
  depthMembers : List (String × Json) → Nat
    | [] => 0
    | (_, value) :: rest => max value.depth (depthMembers rest)

mutual

def Expr.ofJsonWith? : Nat → Json → Option Expr
  | 0, _ => none
  | fuel + 1, json => do
      let span ← json.field? "span" Span.ofJson?
      let kind ← json.member? "kind"
      let data := (kind.member? "data").getD .null
      match ← kind.field? "expr" Json.string? with
      | "literal" => some (.literal (← Literal.ofJson? data) span)
      | "this" => some (.this span)
      | "reference" => some (.reference (← Ident.ofJson? data) span)
      | "member_access" =>
          let object ← data.field? "object" (Expr.ofJsonWith? fuel)
          some (.access object (← data.field? "member" Ident.ofJson?) span)
      | "unary" =>
          let op ← data.field? "op" (Json.named? UnaryOp.all UnaryOp.jsonName)
          some (.unary op (← data.field? "operand" (Expr.ofJsonWith? fuel)) span)
      | "binary" =>
          let op ← data.field? "op" (Json.named? BinaryOp.all BinaryOp.jsonName)
          let left ← data.field? "left" (Expr.ofJsonWith? fuel)
          some (.binary op left (← data.field? "right" (Expr.ofJsonWith? fuel)) span)
      | "invocation" =>
          let function ← data.field? "function" Ident.ofJson?
          let arguments ← data.field? "args" (Json.listOf? (Argument.ofJsonWith? fuel))
          some (.call function arguments span)
      | "array" => some (.list (← data.listOf? (Expr.ofJsonWith? fuel)) span)
      | "collection_predicate" =>
          let collection ← data.field? "collection" (Expr.ofJsonWith? fuel)
          let quantifier ←
            data.field? "quantifier" (Json.named? Quantifier.every Quantifier.jsonName)
          let condition ← data.field? "condition" (Expr.ofJsonWith? fuel)
          some (.quantified collection quantifier condition span)
      | _ => none

def Argument.ofJsonWith? : Nat → Json → Option Argument
  | 0, _ => none
  | fuel + 1, json => do
      let value ← json.field? "value" (Expr.ofJsonWith? fuel)
      match ← json.field? "kind" Json.string? with
      | "positional" => some (.positional value)
      | "named" => some (.named (← json.field? "name" Ident.ofJson?) value)
      | _ => none

end

/-- Every level of an expression takes at least one level of the JSON value. -/
def Expr.ofJson? (json : Json) : Option Expr := Expr.ofJsonWith? (json.depth + 1) json

def Argument.ofJson? (json : Json) : Option Argument :=
  Argument.ofJsonWith? (json.depth + 1) json

namespace Attribute

def toJson (applied : Attribute) : Json :=
  .object [("name", applied.name.toJson), ("args", .array (applied.arguments.map Argument.toJson)),
    ("span", applied.span.toJson)]

def ofJson? (json : Json) : Option Attribute := do
  some ⟨← json.field? "name" Ident.ofJson?, ← json.field? "args" (Json.listOf? Argument.ofJson?),
    ← json.field? "span" Span.ofJson?⟩

end Attribute

namespace ConfigEntry

def toJson (entry : ConfigEntry) : Json :=
  .object [("name", entry.name.toJson), ("value", entry.value.toJson), ("span", entry.span.toJson)]

def ofJson? (json : Json) : Option ConfigEntry := do
  some ⟨← json.field? "name" Ident.ofJson?, ← json.field? "value" Expr.ofJson?,
    ← json.field? "span" Span.ofJson?⟩

end ConfigEntry

namespace ConfigBlock

def jsonMembers (block : ConfigBlock) : List (String × Json) :=
  [("name", block.name.toJson), ("fields", .array (block.entries.map ConfigEntry.toJson)),
    ("span", block.span.toJson)]

def ofJson? (json : Json) : Option ConfigBlock := do
  some ⟨← json.field? "name" Ident.ofJson?,
    ← json.field? "fields" (Json.listOf? ConfigEntry.ofJson?), ← json.field? "span" Span.ofJson?⟩

end ConfigBlock

namespace EnumMember

def toJson (enumMember : EnumMember) : Json :=
  .object [("name", enumMember.name.toJson),
    ("attributes", .array (enumMember.attributes.map Attribute.toJson)),
    ("span", enumMember.span.toJson)]

def ofJson? (json : Json) : Option EnumMember := do
  some ⟨← json.field? "name" Ident.ofJson?,
    ← json.field? "attributes" (Json.listOf? Attribute.ofJson?), ← json.field? "span" Span.ofJson?⟩

end EnumMember

namespace EnumDecl

def jsonMembers (decl : EnumDecl) : List (String × Json) :=
  [("name", decl.name.toJson), ("members", .array (decl.members.map EnumMember.toJson)),
    ("attributes", .array (decl.attributes.map Attribute.toJson)), ("span", decl.span.toJson)]

def ofJson? (json : Json) : Option EnumDecl := do
  some ⟨← json.field? "name" Ident.ofJson?,
    ← json.field? "members" (Json.listOf? EnumMember.ofJson?),
    ← json.field? "attributes" (Json.listOf? Attribute.ofJson?), ← json.field? "span" Span.ofJson?⟩

end EnumDecl

namespace Field

def toJson (field : Field) : Json :=
  .object [("name", field.name.toJson), ("ty", field.type.toJson),
    ("attributes", .array (field.attributes.map Attribute.toJson)), ("span", field.span.toJson)]

def ofJson? (json : Json) : Option Field := do
  some ⟨← json.field? "name" Ident.ofJson?, ← json.field? "ty" TypeRef.ofJson?,
    ← json.field? "attributes" (Json.listOf? Attribute.ofJson?), ← json.field? "span" Span.ofJson?⟩

end Field

namespace Model

def jsonMembers (model : Model) : List (String × Json) :=
  [("name", model.name.toJson), ("is_abstract", .bool model.isAbstract),
    ("extends", .array (model.bases.map Ident.toJson)),
    ("fields", .array (model.fields.map Field.toJson)),
    ("attributes", .array (model.attributes.map Attribute.toJson)), ("span", model.span.toJson)]

def ofJson? (json : Json) : Option Model := do
  some ⟨← json.field? "name" Ident.ofJson?, ← json.field? "is_abstract" Json.bool?,
    ← json.field? "extends" (Json.listOf? Ident.ofJson?),
    ← json.field? "fields" (Json.listOf? Field.ofJson?),
    ← json.field? "attributes" (Json.listOf? Attribute.ofJson?), ← json.field? "span" Span.ofJson?⟩

end Model

namespace FunctionParam

def toJson (param : FunctionParam) : Json :=
  .object [("name", param.name.toJson), ("ty", param.type.toJson)]

def ofJson? (json : Json) : Option FunctionParam := do
  some ⟨← json.field? "name" Ident.ofJson?, ← json.field? "ty" TypeRef.ofJson?⟩

end FunctionParam

namespace FunctionDecl

def jsonMembers (decl : FunctionDecl) : List (String × Json) :=
  [("name", decl.name.toJson), ("params", .array (decl.params.map FunctionParam.toJson)),
    ("return_type", decl.result.toJson),
    ("body", match decl.body with
      | some body => body.toJson
      | none => .null),
    ("span", decl.span.toJson)]

def ofJson? (json : Json) : Option FunctionDecl := do
  let body ←
    match json.member? "body" with
    | none | some .null => some none
    | some body => (Expr.ofJson? body).map some
  some ⟨← json.field? "name" Ident.ofJson?,
    ← json.field? "params" (Json.listOf? FunctionParam.ofJson?),
    ← json.field? "return_type" TypeRef.ofJson?, body, ← json.field? "span" Span.ofJson?⟩

end FunctionDecl

namespace AttributeParam

def toJson (param : AttributeParam) : Json :=
  .object [("name", param.name.toJson), ("ty", param.type.toJson),
    ("positional", .bool param.isPositional)]

def ofJson? (json : Json) : Option AttributeParam := do
  some ⟨← json.field? "name" Ident.ofJson?, ← json.field? "ty" TypeRef.ofJson?,
    ← json.field? "positional" Json.bool?⟩

end AttributeParam

namespace AttributeDecl

def jsonMembers (decl : AttributeDecl) : List (String × Json) :=
  [("name", decl.name.toJson), ("params", .array (decl.params.map AttributeParam.toJson)),
    ("meta", .array (decl.restrictions.map Attribute.toJson)), ("span", decl.span.toJson)]

def ofJson? (json : Json) : Option AttributeDecl := do
  some ⟨← json.field? "name" Ident.ofJson?,
    ← json.field? "params" (Json.listOf? AttributeParam.ofJson?),
    ← json.field? "meta" (Json.listOf? Attribute.ofJson?), ← json.field? "span" Span.ofJson?⟩

end AttributeDecl

namespace Declaration

def toJson : Declaration → Json
  | .dataSource block => .object (("declaration", .string "data_source") :: block.jsonMembers)
  | .plugin block => .object (("declaration", .string "plugin") :: block.jsonMembers)
  | .enum decl => .object (("declaration", .string "enum") :: decl.jsonMembers)
  | .model decl => .object (("declaration", .string "model") :: decl.jsonMembers)
  | .function decl => .object (("declaration", .string "function") :: decl.jsonMembers)
  | .attr decl => .object (("declaration", .string "attribute") :: decl.jsonMembers)

def ofJson? (json : Json) : Option Declaration := do
  match ← json.field? "declaration" Json.string? with
  | "data_source" => (ConfigBlock.ofJson? json).map .dataSource
  | "plugin" => (ConfigBlock.ofJson? json).map .plugin
  | "enum" => (EnumDecl.ofJson? json).map .enum
  | "model" => (Model.ofJson? json).map .model
  | "function" => (FunctionDecl.ofJson? json).map .function
  | "attribute" => (AttributeDecl.ofJson? json).map .attr
  | _ => none

end Declaration

namespace Document

def toJson (document : Document) : Json :=
  .object [("declarations", .array (document.declarations.map Declaration.toJson))]

def ofJson? (json : Json) : Option Document := do
  some ⟨← json.field? "declarations" (Json.listOf? Declaration.ofJson?)⟩

end Document

end Schemata
