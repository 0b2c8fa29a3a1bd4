import Schemata.Syntax.Ident

set_option autoImplicit false

namespace Schemata

inductive Scalar
  | string
  | boolean
  | int
  | bigInt
  | float
  | decimal
  | dateTime
  | json
  | bytes
deriving Repr, DecidableEq, Inhabited

namespace Scalar

def all : List Scalar :=
  [.string, .boolean, .int, .bigInt, .float, .decimal, .dateTime, .json, .bytes]

def name : Scalar → String
  | .string => "String"
  | .boolean => "Boolean"
  | .int => "Int"
  | .bigInt => "BigInt"
  | .float => "Float"
  | .decimal => "Decimal"
  | .dateTime => "DateTime"
  | .json => "Json"
  | .bytes => "Bytes"

def ofName? (name : String) : Option Scalar :=
  all.find? (·.name == name)

@[simp] theorem ofName?_name (scalar : Scalar) : ofName? scalar.name = some scalar := by
  cases scalar <;> decide

def isNumeric : Scalar → Bool
  | .int | .bigInt | .float | .decimal => true
  | _ => false

end Scalar

/-- The types that only signatures of functions and attributes may name. -/
inductive Builtin
  | any
  /-- The type of the field that an attribute decorates. -/
  | contextType
  | fieldReference
  /-- A field of the model at the other end of a relation. -/
  | transitiveFieldReference
  | null
  | object
deriving Repr, DecidableEq, Inhabited

namespace Builtin

def all : List Builtin :=
  [.any, .contextType, .fieldReference, .transitiveFieldReference, .null, .object]

def name : Builtin → String
  | .any => "Any"
  | .contextType => "ContextType"
  | .fieldReference => "FieldReference"
  | .transitiveFieldReference => "TransitiveFieldReference"
  | .null => "Null"
  | .object => "Object"

def ofName? (name : String) : Option Builtin :=
  all.find? (·.name == name)

@[simp] theorem ofName?_name (builtin : Builtin) : ofName? builtin.name = some builtin := by
  cases builtin <;> decide

end Builtin

inductive TypeName
  | scalar (kind : Scalar)
  | builtin (kind : Builtin)
  | unsupported (text : String)
  | named (name : Ident)
deriving Repr, BEq, Inhabited

namespace TypeName

/-- Scalars and built-in types take their names before any declaration does. -/
def ofIdent (ident : Ident) : TypeName :=
  match Scalar.ofName? ident.name with
  | some kind => .scalar kind
  | none =>
      match Builtin.ofName? ident.name with
      | some kind => .builtin kind
      | none => .named ident

def erase : TypeName → TypeName
  | .named name => .named name.erase
  | other => other

end TypeName

structure TypeRef where
  name : TypeName
  isList : Bool
  isOptional : Bool
  span : Span
deriving Repr, Inhabited

namespace TypeRef

instance : BEq TypeRef :=
  ⟨fun left right =>
    left.name == right.name && left.isList == right.isList && left.isOptional == right.isOptional⟩

def erase (type : TypeRef) : TypeRef :=
  { type with name := type.name.erase, span := Span.zero }

end TypeRef

end Schemata
