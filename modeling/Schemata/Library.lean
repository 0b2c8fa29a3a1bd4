import Schemata.Syntax.Document

set_option autoImplicit false

namespace Schemata.Library

def ident (name : String) : Ident := ⟨name, Span.zero⟩

def scalar (kind : Scalar) : TypeRef := ⟨.scalar kind, false, false, Span.zero⟩

def builtin (kind : Builtin) : TypeRef := ⟨.builtin kind, false, false, Span.zero⟩

def named (name : String) : TypeRef := ⟨.named (ident name), false, false, Span.zero⟩

def list (type : TypeRef) : TypeRef := { type with isList := true }

def optional (type : TypeRef) : TypeRef := { type with isOptional := true }

def enum (name : String) (members : List String) : Declaration :=
  .enum ⟨ident name, members.map fun text => ⟨ident text, [], Span.zero⟩, [], Span.zero⟩

def function (name : String) (params : List (String × TypeRef)) (result : TypeRef) : Declaration :=
  .function
    ⟨ident name, params.map fun (text, type) => ⟨ident text, type⟩, result, none, Span.zero⟩

def byName (name : String) (type : TypeRef) : AttributeParam := ⟨ident name, type, false⟩

def byPosition (name : String) (type : TypeRef) : AttributeParam := ⟨ident name, type, true⟩

def attr (name : String) (params : List AttributeParam) : Declaration :=
  .attr ⟨ident name, params, [], Span.zero⟩

def attrFor (name : String) (params : List AttributeParam) (fields : List String) : Declaration :=
  let allowed := fields.map fun field => Expr.reference (ident field) Span.zero
  .attr ⟨ident name, params,
    [⟨ident "@@@targetField", [.positional (.list allowed Span.zero)], Span.zero⟩], Span.zero⟩

def string : TypeRef := scalar .string
def boolean : TypeRef := scalar .boolean
def int : TypeRef := scalar .int
def any : TypeRef := builtin .any

def enums : List Declaration := [
  enum "SortOrder" ["Asc", "Desc"],
  enum "ReferentialAction" ["Cascade", "Restrict", "NoAction", "SetNull", "SetDefault"],
  enum "AttributeTargetField" [
    "StringField", "IntField", "BigIntField", "FloatField", "DecimalField", "BooleanField",
    "DateTimeField", "JsonField", "BytesField", "EnumField", "ModelField"]]

def functions : List Declaration := [
  function "env" [("name", string)] string,
  function "auth" [] any,
  function "future" [] any,
  function "now" [] (scalar .dateTime),
  function "uuid" [("version", optional int)] string,
  function "cuid" [] string,
  function "autoincrement" [] int,
  function "dbgenerated" [("expr", optional string)] any,
  function "contains"
    [("field", string), ("search", string), ("caseInSensitive", optional boolean)] boolean,
  function "startsWith" [("field", string), ("search", string)] boolean,
  function "endsWith" [("field", string), ("search", string)] boolean,
  function "has" [("field", list any), ("search", any)] boolean,
  function "hasSome" [("field", list any), ("search", list any)] boolean,
  function "hasEvery" [("field", list any), ("search", list any)] boolean,
  function "isEmpty" [("field", list any)] boolean]

def optionalString : TypeRef := optional string

def fieldAttributes : List Declaration := [
  attr "@id" [byName "map" optionalString],
  attr "@default" [byPosition "value" (builtin .contextType), byName "map" optionalString],
  attrFor "@unique" [byName "map" optionalString] [
    "StringField", "IntField", "BigIntField", "FloatField", "DecimalField", "BooleanField",
    "DateTimeField", "BytesField", "EnumField"],
  attr "@map" [byPosition "name" string],
  attrFor "@updatedAt" [] ["DateTimeField"],
  attrFor "@relation" [
    byPosition "name" optionalString,
    byName "fields" (optional (list (builtin .fieldReference))),
    byName "references" (optional (list (builtin .transitiveFieldReference))),
    byName "onDelete" (optional (named "ReferentialAction")),
    byName "onUpdate" (optional (named "ReferentialAction")),
    byName "map" optionalString] ["ModelField"],
  attr "@ignore" [],
  attr "@omit" [],
  attr "@allow" [byPosition "operation" string, byPosition "condition" boolean],
  attr "@deny" [byPosition "operation" string, byPosition "condition" boolean]]

def keyParams : List AttributeParam := [
  byPosition "fields" (list (builtin .fieldReference)), byName "name" optionalString,
  byName "map" optionalString]

def modelAttributes : List Declaration := [
  attr "@@id" keyParams,
  attr "@@unique" keyParams,
  attr "@@index" keyParams,
  attr "@@map" [byPosition "name" string],
  attr "@@ignore" [],
  attr "@@allow" [byPosition "operation" string, byPosition "condition" boolean],
  attr "@@deny" [byPosition "operation" string, byPosition "condition" boolean],
  attr "@@delegate" [byPosition "discriminator" (builtin .fieldReference)]]

def document : Document :=
  ⟨enums ++ functions ++
    [attr "@@@targetField" [byPosition "targetField" (list (named "AttributeTargetField"))]] ++
    fieldAttributes ++ modelAttributes⟩

end Schemata.Library
