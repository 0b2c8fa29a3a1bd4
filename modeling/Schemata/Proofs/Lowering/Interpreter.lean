import Schemata.Predicate.Eval
import Schemata.Proofs.Decimal.Numerals
import Schemata.Typing.Check

/-!
# Interpreting expressions

An expression is interpreted on values, without a predicate between. Every open frame stands with
what it carries, and a name is read from the very frame that it means. A function with a body is
applied to the results of its arguments, and each use of a parameter denotes such a result.
-/

set_option autoImplicit false

namespace Schemata

abbrev Evaluated := Except EvalError Json

/-- A frame with its value, or with what its parameters denote. -/
inductive Layer
  | record (model : Model) (value : Json)
  | element (model : Model) (value : Json)
  | function (params : List FunctionParam) (results : List Evaluated)

namespace Layer

def frame : Layer → Frame
  | .record model _ => .record model
  | .element model _ => .element model
  | .function params _ => .function params

def value? : Layer → Option Json
  | .record _ value | .element _ value => some value
  | .function _ _ => none

def results : Layer → List Evaluated
  | .function _ results => results
  | _ => []

end Layer

/-- The open layers, innermost first. -/
abbrev Stack := List Layer

namespace Stack

def scope (stack : Stack) : Scope := stack.map Layer.frame

/-- The values of the layers that carry one, outermost first. -/
def values : Stack → List Json
  | [] => []
  | layer :: outer => values outer ++ layer.value?.toList

/-- The layer of a frame, which counts from the outermost one. -/
def layerAt? : Stack → Nat → Option Layer
  | [], _ => none
  | layer :: outer, frame => if frame = outer.length then some layer else layerAt? outer frame

def this : Stack → Json
  | [] => .null
  | layer :: outer => layer.value?.getD (this outer)

def valueAt (stack : Stack) (frame : Nat) : Json :=
  ((stack.layerAt? frame).bind Layer.value?).getD .null

def resultAt (stack : Stack) (frame index : Nat) : Evaluated :=
  ((stack.layerAt? frame).bind fun layer => layer.results[index]?).getD (.ok .null)

end Stack

namespace Json

def memberOrNull (value : Json) (name : String) : Json := (value.member? name).getD .null

end Json

/-- An integer that fits 64 bits with a sign, or else the nearest double. -/
def Numeral.value (text : String) : Json :=
  let chars := text.toList
  let isWhole := chars.all (· ∉ ['.', 'e', 'E'])
  if isWhole && Json.isSigned64 (signed chars) then .int (signed chars) else .float (double chars)

def Literal.value : Literal → Json
  | .string text => .string text
  | .number text => Numeral.value text
  | .boolean value => .bool value
  | .null => .null

def Schema.defined? (schema : Schema) (name : String) : Option FunctionDecl :=
  match schema.symbols.symbol? name with
  | some ⟨.function decl, .document⟩ => if decl.body.isSome then some decl else none
  | _ => none

/-- The model of the records that are compared if a side has the type of a model. -/
def Schema.recordModel? (schema : Schema) (scope : Scope) (left right : Expr) : Option Model :=
  -- What is compared with null itself is compared as it is, whether it is a record or not.
  if left.isNull || right.isNull then none
  else
    match (left.typeIn schema scope).model? with
    | some model => some model
    | none => (right.typeIn schema scope).model?

/-- The answer of an operator that its left side settles. -/
def BinaryOp.settled? (op : BinaryOp) (first : Json) : Option Bool :=
  match op, first.isTrue with
  | .and, false => some false
  | .or, true => some true
  | _, _ => none

structure Interpretation where
  schema : Schema
  context : EvalContext
  sameRecord : Model → Json → Json → Bool
  apply : FunctionDecl → List Evaluated → Evaluated

namespace Interpretation

variable (meaning : Interpretation)

def read (stack : Stack) (name : String) : Evaluated :=
  match stack.scope.lookup? meaning.schema name with
  | some (.param frame index _) => stack.resultAt frame index
  | some (.field frame _ _ field) => .ok ((stack.valueAt frame).memberOrNull field.name.name)
  | some (.enumMember _ enumMember) => .ok (.string enumMember.name.name)
  | none => .ok .null

def equates (scope : Scope) (left right : Expr) (first second : Json) : Bool :=
  match meaning.schema.recordModel? scope left right with
  | some model => meaning.sameRecord model first second
  | none => first.equal second

def operate (scope : Scope) (op : BinaryOp) (left right : Expr) (first second : Json) : Json :=
  match op with
  | .mul => Arithmetic.mul.apply first second
  | .div => Arithmetic.div.apply first second
  | .add => Arithmetic.add.apply first second
  | .sub => Arithmetic.sub.apply first second
  | .lt => .bool (Comparison.lt.holds first second)
  | .le => .bool (Comparison.le.holds first second)
  | .gt => .bool (Comparison.gt.holds first second)
  | .ge => .bool (Comparison.ge.holds first second)
  | .eq => .bool (meaning.equates scope left right first second)
  | .ne => .bool (!meaning.equates scope left right first second)
  | .and | .or => .bool second.isTrue

def call (name : String) (results : List Evaluated) : Evaluated :=
  match meaning.schema.defined? name with
  | some decl => meaning.apply decl results
  | none => do
      let values ← results.mapM id
      meaning.context.call name values

end Interpretation

def Quantifier.holds (quantifier : Quantifier) (test : Json → Except EvalError Bool)
    (items : List Json) : Except EvalError Bool :=
  match quantifier with
  | .any => items.anyM test
  | .all => items.allM test
  | .none => (items.anyM test).map fun found => !found

mutual

def Expr.interpretWith (meaning : Interpretation) (stack : Stack) : Expr → Evaluated
  | .literal value _ => .ok value.value
  | .this _ => .ok stack.this
  | .reference name _ => meaning.read stack name.name
  | .access object name _ => do
      let value ← object.interpretWith meaning stack
      .ok (value.memberOrNull name.name)
  | .unary .negate operand _ => do
      let value ← operand.interpretWith meaning stack
      .ok value.negate
  | .unary .not operand _ => do
      let value ← operand.interpretWith meaning stack
      .ok (.bool (!value.isTrue))
  | .binary op left right _ => do
      let first ← left.interpretWith meaning stack
      match op.settled? first with
      | some answer => .ok (.bool answer)
      | none => do
          let second ← right.interpretWith meaning stack
          .ok (meaning.operate stack.scope op left right first second)
  | .call function arguments _ =>
      match function.name with
      | "auth" => .ok (meaning.context.principal.getD .null)
      | "future" => .ok (meaning.context.future.getD meaning.context.record)
      | name => meaning.call name (Argument.interpretEach meaning stack arguments)
  | .list items _ => do
      let values ← (Expr.interpretEach meaning stack items).mapM id
      .ok (.array values)
  | .quantified collection quantifier condition _ => do
      let value ← collection.interpretWith meaning stack
      match (collection.typeIn meaning.schema stack.scope).kind with
      | .model model => do
          let found ← quantifier.holds (fun item => do
            let result ← condition.interpretWith meaning (.element model item :: stack)
            .ok result.isTrue) value.elements
          .ok (.bool found)
      | _ => .ok .null

def Expr.interpretEach (meaning : Interpretation) (stack : Stack) : List Expr → List Evaluated
  | [] => []
  | item :: rest => item.interpretWith meaning stack :: Expr.interpretEach meaning stack rest

def Argument.interpretEach (meaning : Interpretation) (stack : Stack) :
    List Argument → List Evaluated
  | [] => []
  | .positional value :: rest | .named _ value :: rest =>
      value.interpretWith meaning stack :: Argument.interpretEach meaning stack rest

end

section

variable (meaning : Interpretation) (stack : Stack) {function : Ident} (arguments : List Argument)
  (span : Span)

theorem Expr.interpretWith_auth (isAuth : function.name = "auth") :
    (Expr.call function arguments span).interpretWith meaning stack =
      .ok (meaning.context.principal.getD .null) := by
  rw [interpretWith]
  simp only [isAuth]

theorem Expr.interpretWith_future (isFuture : function.name = "future") :
    (Expr.call function arguments span).interpretWith meaning stack =
      .ok (meaning.context.future.getD meaning.context.record) := by
  rw [interpretWith]
  simp only [isFuture]

theorem Expr.interpretWith_call (notAuth : function.name ≠ "auth")
    (notFuture : function.name ≠ "future") :
    (Expr.call function arguments span).interpretWith meaning stack =
      meaning.call function.name (Argument.interpretEach meaning stack arguments) := by
  rw [interpretWith]
  split
  next isAuth => exact absurd isAuth notAuth
  next isFuture => exact absurd isFuture notFuture
  next => rfl

end

theorem Expr.interpretEach_eq_map (meaning : Interpretation) (stack : Stack) (items : List Expr) :
    Expr.interpretEach meaning stack items = items.map (Expr.interpretWith meaning stack) := by
  induction items with
  | nil => rfl
  | cons item rest ih => rw [Expr.interpretEach, ih, List.map_cons]

theorem Argument.interpretEach_eq_map (meaning : Interpretation) (stack : Stack)
    (arguments : List Argument) :
    Argument.interpretEach meaning stack arguments =
      arguments.map fun argument => argument.value.interpretWith meaning stack := by
  induction arguments with
  | nil => rfl
  | cons argument rest ih =>
    cases argument <;> rw [Argument.interpretEach, ih, List.map_cons] <;> rfl

/--
Apply a function with nothing but its parameters in scope, with at most `fuel` functions applied
inside each other.
-/
def Interpretation.applyInside (schema : Schema) (context : EvalContext)
    (sameRecord : Model → Json → Json → Bool) : Nat → FunctionDecl → List Evaluated → Evaluated
  | fuel, decl, results =>
      match fuel, decl.body with
      | fuel + 1, some body =>
          body.interpretWith
            ⟨schema, context, sameRecord, applyInside schema context sameRecord fuel⟩
            [.function decl.params results]
      | _, _ => .ok .null

theorem Interpretation.applyInside_succ {schema : Schema} {context : EvalContext}
    {sameRecord : Model → Json → Json → Bool} {fuel : Nat} {decl : FunctionDecl} {body : Expr}
    (defined : decl.body = some body) (results : List Evaluated) :
    applyInside schema context sameRecord (fuel + 1) decl results =
      body.interpretWith ⟨schema, context, sameRecord, applyInside schema context sameRecord fuel⟩
        [.function decl.params results] := by
  rw [applyInside.eq_def]
  simp only [defined]

end Schemata
