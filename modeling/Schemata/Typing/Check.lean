import Schemata.Diagnostic.Checked
import Schemata.Schema.Scope
import Schemata.Typing.ValueType

/-!
# Types of expressions

The check of an expression gives its type and reports every issue once. `future` says that the
record after an update may be used.
-/

set_option autoImplicit false

namespace Schemata

namespace Typing

def reject (span : Span) (issue : TypeIssue) : Checked ValueType :=
  ⟨.any, [.error span (.typing issue)]⟩

def reportUnless (condition : Bool) (span : Span) (issue : TypeIssue) : Checked Unit :=
  ⟨(), reportIf (!condition) (.error span (.typing issue))⟩

def typeOfRef (schema : Schema) (type : TypeRef) : ValueType :=
  .ofResolved (schema.symbols.resolve type) type.isList

def field (schema : Schema) (field : Field) (span : Span) : Checked ValueType :=
  match schema.typeOf field with
  | .unsupported => reject span .unsupportedField
  | type => pure (.ofResolved type field.type.isList)

def literal : Literal → ValueType
  | .string _ => .scalar .string
  | .number text => .scalar (if text.toList.contains '.' then .float else .int)
  | .boolean _ => .boolean
  | .null => .null

def this (scope : Scope) (span : Span) : Checked ValueType :=
  match scope.this? with
  | some (_, _, model) => pure (.model model)
  | none => reject span .thisOutsideModel

def reference (schema : Schema) (scope : Scope) (name : Ident) : Checked ValueType :=
  match scope.lookup? schema name.name with
  | some (.param _ _ param) => pure (typeOfRef schema param.type)
  | some (.field _ _ _ found) => field schema found name.span
  | some (.enumMember decl _) => pure ⟨.enum decl, false⟩
  | none => ⟨.any, [.unresolved .value name]⟩

def access (schema : Schema) (object : ValueType) (name : Ident) : Checked ValueType :=
  match object.kind with
  | .any => pure .any
  | .model model =>
      if object.isList then reject name.span (.memberOfList name.name)
      else
        match schema.field? model name.name with
        | some visible => field schema visible.field name.span
        | none => ⟨.any, [.unresolved .field name]⟩
  | _ => reject name.span (.memberOfNonModel object.describe)

def unary (op : UnaryOp) (operand : ValueType) (span : Span) : Checked ValueType :=
  match op with
  | .not => do
      reportUnless operand.isBooleanLike span .notOperand
      pure .boolean
  | .negate => if operand.isNumericLike then pure operand else reject span .negateOperand

def arithmetic (left right : ValueType) : ValueType :=
  match left.kind, right.kind with
  | .any, _ | _, .any => .any
  | .scalar first, .scalar second =>
      if first = second then .scalar first
      else if first = .decimal ∨ second = .decimal then .scalar .decimal
      else .scalar .float
  | _, _ => .scalar .float

def binary (op : BinaryOp) (left right : ValueType) (span : Span) : Checked ValueType :=
  if op.isLogical then do
    reportUnless (left.isBooleanLike && right.isBooleanLike) span (.logicalOperands op.symbol)
    pure .boolean
  else if op.isArithmetic then
    if left.isNumericLike && right.isNumericLike then pure (arithmetic left right)
    else reject span (.arithmeticOperands op.symbol)
  else if op.isRelational then do
    reportUnless
      ((left.isNumericLike && right.isNumericLike) ||
        (left.isDateTimeLike && right.isDateTimeLike)) span (.relationalOperands op.symbol)
    pure .boolean
  else do
    reportUnless (left.comparable right) span
      (.incomparable left.describe right.describe op.symbol)
    pure .boolean

def join (first second : ValueType) : ValueType :=
  if first.assignable false second then first
  else if second.assignable false first then second
  else .any

def list : List ValueType → ValueType
  | [] => ⟨.any, true⟩
  | first :: rest =>
      let item := rest.foldl join first
      if item.isList then ⟨.any, true⟩ else ⟨item.kind, true⟩

def principal (schema : Schema) (span : Span) : Checked ValueType :=
  match schema.principal? with
  | some model => pure (.model model)
  | none => reject span (.noPrincipal Schema.principalName)

def updated (future : Bool) (scope : Scope) (span : Span) : Checked ValueType := do
  reportUnless future span .futureNotAllowed
  match scope.record? with
  | some model => pure (.model model)
  | none => reject span .futureOutsideModel

def argumentCount (decl : FunctionDecl) (function : Ident) (given : Nat) : Checked Unit :=
  let least := decl.params.countP fun param => !param.type.isOptional
  let most := decl.params.length
  if most < given then
    reportUnless false function.span (.tooManyArguments function.name most given)
  else reportUnless (least ≤ given) function.span (.tooFewArguments function.name least given)

def argument (schema : Schema) (function : String) (params : List FunctionParam) (value : Expr)
    (type : ValueType) : Checked Unit :=
  match params with
  | [] => pure ()
  | param :: _ =>
      reportUnless ((typeOfRef schema param.type).assignable value.string?.isSome type) value.span
        (.argumentType type.describe param.name.name function)

end Typing

open Typing in
mutual

def Expr.check (schema : Schema) (future : Bool) (scope : Scope) : Expr → Checked ValueType
  | .literal value _ => pure (Typing.literal value)
  | .this span => Typing.this scope span
  | .reference name _ => Typing.reference schema scope name
  | .access object name _ => do
      let type ← object.check schema future scope
      Typing.access schema type name
  | .unary op operand span => do
      let type ← operand.check schema future scope
      Typing.unary op type span
  | .binary op left right span => do
      let first ← left.check schema future scope
      let second ← right.check schema future scope
      Typing.binary op first second span
  | .call function arguments _ =>
      match function.name with
      | "auth" => principal schema function.span
      | "future" => updated future scope function.span
      | name =>
          match schema.symbols.function? name with
          | none => do
              Checked.report (.unresolved .function function)
              let _ ← Argument.checkAll schema future scope name false [] arguments
              pure .any
          | some decl => do
              argumentCount decl function arguments.length
              Argument.checkAll schema future scope name true decl.params arguments
              pure (typeOfRef schema decl.result)
  | .list items _ => do
      let types ← Expr.checkAll schema future scope items
      pure (Typing.list types)
  | .quantified collection _ condition _ => do
      let type ← collection.check schema future scope
      match type.kind with
      | .any => pure .boolean
      | .model model =>
          if type.isList then do
            let result ← condition.check schema future (.element model :: scope)
            reportUnless result.isBooleanLike condition.span .conditionNotBoolean
            pure .boolean
          else do
            reportUnless false collection.span .notACollection
            pure .boolean
      | _ => do
          reportUnless false collection.span .notACollection
          pure .boolean

def Expr.checkAll (schema : Schema) (future : Bool) (scope : Scope) :
    List Expr → Checked (List ValueType)
  | [] => pure []
  | item :: rest => do
      let first ← item.check schema future scope
      let others ← Expr.checkAll schema future scope rest
      pure (first :: others)

/--
Check arguments from left to right against the remaining parameters. The arguments of an unknown
function may have names.
-/
def Argument.checkAll (schema : Schema) (future : Bool) (scope : Scope) (function : String)
    (known : Bool) : List FunctionParam → List Argument → Checked Unit
  | _, [] => pure ()
  | params, .positional value :: rest => do
      let type ← value.check schema future scope
      Typing.argument schema function params value type
      Argument.checkAll schema future scope function known params.tail rest
  | params, .named name value :: rest => do
      reportUnless (!known) name.span (.namedArgument function)
      let type ← value.check schema future scope
      Typing.argument schema function params value type
      Argument.checkAll schema future scope function known params.tail rest

end

def Expr.typeIn (schema : Schema) (scope : Scope) (expr : Expr) : ValueType :=
  (expr.check schema true scope).value

def FunctionDecl.check (schema : Schema) (decl : FunctionDecl) : List Diagnostic :=
  match decl.body with
  | none => []
  | some body =>
      let checked := body.check schema false [.function decl.params]
      let expected := Typing.typeOfRef schema decl.result
      checked.diagnostics ++
        reportIf (!expected.assignable body.string?.isSome checked.value)
          (.error body.span
            (.typing (.bodyType decl.name.name checked.value.describe expected.describe)))

section

variable (schema : Schema) (future : Bool) (scope : Scope) {function : Ident}
  (arguments : List Argument) (span : Span)

theorem Expr.check_auth (isAuth : function.name = "auth") :
    (Expr.call function arguments span).check schema future scope =
      Typing.principal schema function.span := by
  rw [check]
  simp only [isAuth]

theorem Expr.check_future (isFuture : function.name = "future") :
    (Expr.call function arguments span).check schema future scope =
      Typing.updated future scope function.span := by
  rw [check]
  simp only [isFuture]

theorem Expr.check_unknown (notAuth : function.name ≠ "auth") (notFuture : function.name ≠ "future")
    (unknown : schema.symbols.function? function.name = none) :
    (Expr.call function arguments span).check schema future scope = (do
      Checked.report (.unresolved .function function)
      let _ ← Argument.checkAll schema future scope function.name false [] arguments
      pure .any) := by
  rw [check]
  split
  next isAuth => exact absurd isAuth notAuth
  next isFuture => exact absurd isFuture notFuture
  next => simp only [unknown]

theorem Expr.check_call (notAuth : function.name ≠ "auth") (notFuture : function.name ≠ "future")
    {decl : FunctionDecl} (known : schema.symbols.function? function.name = some decl) :
    (Expr.call function arguments span).check schema future scope = (do
      Typing.argumentCount decl function arguments.length
      Argument.checkAll schema future scope function.name true decl.params arguments
      pure (Typing.typeOfRef schema decl.result)) := by
  rw [check]
  split
  next isAuth => exact absurd isAuth notAuth
  next isFuture => exact absurd isFuture notFuture
  next => simp only [known]

end

end Schemata
