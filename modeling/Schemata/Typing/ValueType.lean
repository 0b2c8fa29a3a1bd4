import Schemata.Schema.Basic

/-!
# Types of values

The types of expressions, and where a value of one type may stand for another. An expression that
has an issue gets the type `Any`, which fits everywhere.
-/

set_option autoImplicit false

namespace Schemata

inductive ValueKind
  | scalar (kind : Scalar)
  | enum (decl : EnumDecl)
  | model (decl : Model)
  | null
  | any
  | unsupported
deriving Repr, Inhabited

structure ValueType where
  kind : ValueKind
  isList : Bool
deriving Repr, Inhabited

namespace ValueType

def any : ValueType := ⟨.any, false⟩

def null : ValueType := ⟨.null, false⟩

def scalar (kind : Scalar) : ValueType := ⟨.scalar kind, false⟩

def boolean : ValueType := scalar .boolean

def model (decl : Model) : ValueType := ⟨.model decl, false⟩

def ofResolved (type : ResolvedType) (isList : Bool) : ValueType :=
  match type with
  | .scalar kind => ⟨.scalar kind, isList⟩
  | .enum decl => ⟨.enum decl, isList⟩
  | .model decl => ⟨.model decl, isList⟩
  | .unsupported => ⟨.unsupported, isList⟩
  | .builtin .null => ⟨.null, isList⟩
  | .builtin _ | .unresolved => ⟨.any, isList⟩

variable (type : ValueType)

def isAny : Bool :=
  match type.kind with
  | .any => true
  | _ => false

def isNull : Bool :=
  match type.kind with
  | .null => true
  | _ => false

def scalar? : Option Scalar :=
  match type.kind with
  | .scalar kind => if type.isList then none else some kind
  | _ => none

def model? : Option Model :=
  match type.kind with
  | .model decl => if type.isList then none else some decl
  | _ => none

def isBooleanLike : Bool := type.isAny || type.scalar? == some .boolean

def isNumericLike : Bool := type.isAny || type.scalar?.any Scalar.isNumeric

def isDateTimeLike : Bool := type.isAny || type.scalar? == some .dateTime

def describe : String :=
  let base :=
    match type.kind with
    | .scalar kind => kind.name
    | .enum decl => decl.name.name
    | .model decl => decl.name.name
    | .null => "Null"
    | .any => "Any"
    | .unsupported => "Unsupported"
  if type.isList then base ++ "[]" else base

end ValueType

def Scalar.widensTo (literal : Bool) (target value : Scalar) : Bool :=
  target == value ||
    (value == .int && (target == .bigInt || target == .float || target == .decimal)) ||
    (value == .float && target == .decimal) ||
    (literal && value == .string && (target == .dateTime || target == .bytes))

def ValueKind.assignable (literal : Bool) : ValueKind → ValueKind → Bool
  | .scalar target, .scalar value => Scalar.widensTo literal target value
  | .enum target, .enum value => target.name == value.name
  | .model target, .model value => target.name == value.name
  | _, _ => false

def ValueType.assignable (literal : Bool) (target value : ValueType) : Bool :=
  if value.isAny || value.isNull then true
  else if target.isAny then !target.isList || value.isList
  else target.isList == value.isList && target.kind.assignable literal value.kind

def ValueKind.comparable : ValueKind → ValueKind → Bool
  | .scalar left, .scalar right => left == right || (left.isNumeric && right.isNumeric)
  | .enum left, .enum right => left.name == right.name
  | .model left, .model right => left.name == right.name
  | _, _ => false

def ValueType.comparable (left right : ValueType) : Bool :=
  left.isAny || left.isNull || right.isAny || right.isNull ||
    (left.isList == right.isList && left.kind.comparable right.kind)

theorem ValueType.assignable_of_isAny {literal : Bool} {target value : ValueType}
    (any : value.isAny = true) : ValueType.assignable literal target value = true := by
  simp [ValueType.assignable, any]

end Schemata
