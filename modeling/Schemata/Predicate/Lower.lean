import Schemata.Decimal.Numeral
import Schemata.Predicate.Basic
import Schemata.Predicate.Value
import Schemata.Typing.Check

/-!
# Lowering expressions

An expression becomes a predicate. A field becomes a path from the value of its frame. A collection
predicate becomes `any`, negated where it asks for all or none. Models are equal if their
identifying fields are. A call of a function with a body becomes the body, with the lowered
arguments in place of the parameters.
-/

set_option autoImplicit false

namespace Schemata

inductive LowerError
  | unresolved (name : String)
  | recursiveFunction (name : String)
  | noIdentity (model : String)
  | invalidNumber (text : String)
  | invalidMemberAccess (name : String)
  | invalidCollection
  | illTyped (issue : Issue)
deriving Repr, DecidableEq, Inhabited

def LowerError.message : LowerError → String
  | .unresolved name => "unresolved reference " ++ inQuotes name
  | .recursiveFunction name =>
      "function " ++ inQuotes name ++ " is recursive and cannot be inlined"
  | .noIdentity model => "model " ++ inQuotes model ++ " has no identifying fields to compare"
  | .invalidNumber text => "invalid number literal " ++ inQuotes text
  | .invalidMemberAccess name => inQuotes name ++ " is not a valid member access target"
  | .invalidCollection => "collection predicate over a non-model list"
  | .illTyped issue => "expression does not type-check: " ++ issue.message

namespace BinaryOp

def comparison? : BinaryOp → Option Comparison
  | .eq => some .eq
  | .ne => some .ne
  | .lt => some .lt
  | .le => some .le
  | .gt => some .gt
  | .ge => some .ge
  | _ => none

def arithmetic? : BinaryOp → Option Arithmetic
  | .add => some .add
  | .sub => some .sub
  | .mul => some .mul
  | .div => some .div
  | _ => none

end BinaryOp

structure LowerContext where
  schema : Schema
  /-- The number of values in scope around the body that is inlined. -/
  base : Nat
  /-- What the parameters of that body stand for. -/
  arguments : List Operand
  /-- Inline a call at a place with the given number of values in scope. -/
  inline : FunctionDecl → List Operand → Nat → Except LowerError Operand

namespace Lower

def number (text : String) : Except LowerError Json :=
  match (Numeral.int? text.toList).filter Json.isSigned64 with
  | some value => .ok (.int value)
  | none =>
      match (Numeral.float? text.toList).filter Float.isFinite with
      | some value => .ok (.float value)
      | none => .error (.invalidNumber text)

def literal : Literal → Except LowerError Json
  | .string text => .ok (.string text)
  | .number text => number text
  | .boolean value => .ok (.bool value)
  | .null => .ok .null

def this (context : LowerContext) (scope : Scope) : Except LowerError Operand :=
  match scope.this? with
  | some (_, value, _) => .ok (.field (context.base + value) [])
  | none => .error (.unresolved "this")

def reference (context : LowerContext) (scope : Scope) (name : String) :
    Except LowerError Operand :=
  match scope.lookup? context.schema name with
  | some (.param _ index _) =>
      match context.arguments[index]? with
      | some argument => .ok argument
      | none => .error (.unresolved name)
  | some (.field _ value _ field) => .ok (.field (context.base + value) [field.name.name])
  | some (.enumMember _ enumMember) => .ok (.value (.string enumMember.name.name))
  | none => .error (.unresolved name)

def access (object : Operand) (name : String) : Except LowerError Operand :=
  match object.member? name with
  | some operand => .ok operand
  | none => .error (.invalidMemberAccess name)

/-- The model whose records an equality compares. A comparison with null compares no records. -/
def comparedModel? (schema : Schema) (scope : Scope) (op : Comparison) (left right : Expr) :
    Option Model :=
  if (op == .eq || op == .ne) && !left.isNull && !right.isNull then
    (left.typeIn schema scope).model?.or (right.typeIn schema scope).model?
  else none

def compareMember (left right : Operand) (name : String) : Except LowerError Predicate := do
  let first ← access left name
  let second ← access right name
  .ok (.comparison .eq first second)

def compareMembers (left right : Operand) : List Field → Except LowerError (List Predicate)
  | [] => .ok []
  | field :: rest => do
      let first ← compareMember left right field.name.name
      let others ← compareMembers left right rest
      .ok (first :: others)

def compareRecords (schema : Schema) (op : Comparison) (model : Model) (left right : Operand) :
    Except LowerError Predicate :=
  match schema.idFields model with
  | [] => .error (.noIdentity model.name.name)
  | fields => do
      let comparisons ← compareMembers left right fields
      let same := Predicate.ofComparisons comparisons
      .ok (if op = .eq then same else same.negated)

def compare (schema : Schema) (op : Comparison) (model? : Option Model) (left right : Operand) :
    Except LowerError Predicate :=
  match model? with
  | some model => compareRecords schema op model left right
  | none => .ok (.comparison op left right)

def asPredicate (expr : Expr) (operand : Operand) : Predicate :=
  match expr with
  | .literal (.boolean value) _ => .const value
  | _ => operand.asPredicate

def quantify (quantifier : Quantifier) (collection : Operand) (condition : Predicate) : Predicate :=
  match quantifier with
  | .any => .any collection condition
  | .all => (Predicate.any collection condition.negated).negated
  | .none => (Predicate.any collection condition).negated

def elementModel (schema : Schema) (scope : Scope) (collection : Expr) :
    Except LowerError Model :=
  match (collection.typeIn schema scope).kind with
  | .model model => .ok model
  | _ => .error .invalidCollection

def inlinable? (schema : Schema) (name : String) : Option FunctionDecl :=
  match schema.symbols.function? name, schema.symbols.origin? name with
  | some decl, some .document => if decl.body.isSome then some decl else none
  | _, _ => none

def call (context : LowerContext) (scope : Scope) (name : String) (arguments : List Operand) :
    Except LowerError Operand :=
  match inlinable? context.schema name with
  | some decl => context.inline decl arguments (Scope.valueDepth scope)
  | none => .ok (.call name arguments)

end Lower

mutual

def Expr.lowerWith (context : LowerContext) (scope : Scope) : Expr → Except LowerError Operand
  | .literal value _ => (Lower.literal value).map .value
  | .this _ => Lower.this context scope
  | .reference name _ => Lower.reference context scope name.name
  | .access object name _ => do
      let operand ← object.lowerWith context scope
      Lower.access operand name.name
  | .unary .negate operand _ => do
      let lowered ← operand.lowerWith context scope
      .ok (.negate lowered)
  | .unary .not operand _ => do
      let lowered ← operand.lowerWith context scope
      .ok (.predicate (Lower.asPredicate operand lowered).negated)
  | .binary op left right _ =>
      match op.arithmetic?, op.comparison? with
      | some arithmetic, _ => do
          let first ← left.lowerWith context scope
          let second ← right.lowerWith context scope
          .ok (.arithmetic arithmetic first second)
      | none, some comparison => do
          let model? := Lower.comparedModel? context.schema scope comparison left right
          let first ← left.lowerWith context scope
          let second ← right.lowerWith context scope
          let predicate ← Lower.compare context.schema comparison model? first second
          .ok (.predicate predicate)
      | none, none => do
          let first ← left.lowerWith context scope
          let second ← right.lowerWith context scope
          let parts := [Lower.asPredicate left first, Lower.asPredicate right second]
          .ok (.predicate (if op = .and then .and parts else .or parts))
  | .call function arguments _ =>
      match function.name with
      | "auth" => .ok (.principal [])
      | "future" => .ok (.future [])
      | name => do
          let lowered ← Argument.lowerAllWith context scope arguments
          Lower.call context scope name lowered
  | .list items _ => do
      let lowered ← Expr.lowerAllWith context scope items
      .ok (.list lowered)
  | .quantified collection quantifier condition _ => do
      let model ← Lower.elementModel context.schema scope collection
      let lowered ← collection.lowerWith context scope
      let inner ← condition.lowerWith context (.element model :: scope)
      .ok (.predicate
        (Lower.quantify quantifier lowered (Lower.asPredicate condition inner)))

def Expr.lowerAllWith (context : LowerContext) (scope : Scope) :
    List Expr → Except LowerError (List Operand)
  | [] => .ok []
  | item :: rest => do
      let first ← item.lowerWith context scope
      let others ← Expr.lowerAllWith context scope rest
      .ok (first :: others)

def Argument.lowerAllWith (context : LowerContext) (scope : Scope) :
    List Argument → Except LowerError (List Operand)
  | [] => .ok []
  | .positional value :: rest | .named _ value :: rest => do
      let first ← value.lowerWith context scope
      let others ← Argument.lowerAllWith context scope rest
      .ok (first :: others)

end

section

variable (lowering : LowerContext) (scope : Scope) {function : Ident} (arguments : List Argument)
  (span : Span)

theorem Expr.lowerWith_auth (isAuth : function.name = "auth") :
    (Expr.call function arguments span).lowerWith lowering scope = .ok (.principal []) := by
  rw [lowerWith]
  simp only [isAuth]

theorem Expr.lowerWith_future (isFuture : function.name = "future") :
    (Expr.call function arguments span).lowerWith lowering scope = .ok (.future []) := by
  rw [lowerWith]
  simp only [isFuture]

theorem Expr.lowerWith_call (notAuth : function.name ≠ "auth")
    (notFuture : function.name ≠ "future") :
    (Expr.call function arguments span).lowerWith lowering scope =
      (Argument.lowerAllWith lowering scope arguments).bind fun lowered =>
        Lower.call lowering scope function.name lowered := by
  rw [lowerWith]
  split
  next isAuth => exact absurd isAuth notAuth
  next isFuture => exact absurd isFuture notFuture
  next => rfl

end

/--
Inline a call inside the bodies of the functions `inlined`, with `base` values in scope around the
innermost of them. A body is inlined with nothing but its parameters in scope. As no function is
inlined into itself, there are no more bodies than functions, and `fuel` beyond their number never
runs out.
-/
def Lower.inlineInside (schema : Schema) :
    Nat → List String → Nat → FunctionDecl → List Operand → Nat → Except LowerError Operand
  | fuel, inlined, base, decl, arguments, depth =>
      let name := decl.name.name
      if name ∈ inlined then .error (.recursiveFunction name)
      else
        match fuel, decl.body with
        | fuel + 1, some body =>
            body.lowerWith
              ⟨schema, base + depth, arguments,
                Lower.inlineInside schema fuel (name :: inlined) (base + depth)⟩
              [.function decl.params]
        | _, _ => .error (.unresolved name)

def LowerContext.inside (schema : Schema) (fuel : Nat) (inlined : List String) (base : Nat)
    (arguments : List Operand) : LowerContext :=
  ⟨schema, base, arguments, Lower.inlineInside schema fuel inlined base⟩

def LowerContext.outside (schema : Schema) : LowerContext :=
  .inside schema (schema.symbols.symbols.length + 1) [] 0 []

def Expr.lower (schema : Schema) (scope : Scope) (expr : Expr) : Except LowerError Predicate := do
  let operand ← expr.lowerWith (.outside schema) scope
  .ok (Lower.asPredicate expr operand)

def Schema.lower (schema : Schema) (model : String) (expr : Expr) : Except LowerError Predicate :=
  match schema.symbols.model? model with
  | none => .error (.unresolved model)
  | some record =>
      let scope : Scope := [.record record]
      let checked := expr.check schema true scope
      let found :=
        checked.diagnostics ++
          reportIf (!checked.value.isBooleanLike)
            (.error expr.span (.typing (.notBoolean checked.value.describe)))
      match found with
      | [] => expr.lower schema scope
      | first :: _ => .error (.illTyped first.issue)

end Schemata
