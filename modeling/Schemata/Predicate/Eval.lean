import Schemata.Predicate.Value

/-!
# Evaluating predicates

A predicate reads the record, the principal and the record after an update. Without a principal it
reads null, and without a record after the update the record itself. The parts of a conjunction, of
a disjunction and of a collection are looked at from left to right, and only as far as needed.
-/

set_option autoImplicit false

namespace Schemata

inductive EvalError
  | unknownFunction (name : String)
  | unboundScope (scope : Nat)
deriving Repr, DecidableEq, Inhabited

def EvalError.message : EvalError → String
  | .unknownFunction name => "unknown function \"" ++ name ++ "\""
  | .unboundScope scope => "scope " ++ toString scope ++ " is not bound"

structure EvalContext where
  record : Json
  principal : Option Json
  future : Option Json
  now : String
deriving Repr, Inhabited

namespace EvalContext

variable (context : EvalContext)

def readPrincipal (path : List String) : Json :=
  match context.principal with
  | some principal => principal.walk path
  | none => .null

def readFuture (path : List String) : Json := (context.future.getD context.record).walk path

def readField (scopes : List Json) (scope : Nat) (path : List String) : Except EvalError Json :=
  match scopes[scope]? with
  | some value => .ok (value.walk path)
  | none => .error (.unboundScope scope)

def call (function : String) (arguments : List Json) : Except EvalError Json :=
  match ValueFunction.ofName? function with
  | some known => .ok (known.apply context.now arguments)
  | none => .error (.unknownFunction function)

end EvalContext

def Json.isTrue : Json → Bool
  | .bool value => value
  | _ => false

def Json.elements : Json → List Json
  | .array items => items
  | _ => []

mutual

/-- Evaluate a predicate. `scopes` holds the record and the elements, the innermost last. -/
def Predicate.evalIn (context : EvalContext) (scopes : List Json) :
    Predicate → Except EvalError Bool
  | .const value => .ok value
  | .test operand => do
      let value ← operand.evalIn context scopes
      .ok value.isTrue
  | .not predicate => do
      let value ← predicate.evalIn context scopes
      .ok (!value)
  | .and predicates => Predicate.evalAll context scopes predicates
  | .or predicates => Predicate.evalAny context scopes predicates
  | .comparison op left right => do
      let first ← left.evalIn context scopes
      let second ← right.evalIn context scopes
      .ok (op.holds first second)
  | .any collection predicate => do
      let value ← collection.evalIn context scopes
      value.elements.anyM fun element => predicate.evalIn context (scopes ++ [element])

def Predicate.evalAll (context : EvalContext) (scopes : List Json) :
    List Predicate → Except EvalError Bool
  | [] => .ok true
  | first :: rest => do
      if ← first.evalIn context scopes then Predicate.evalAll context scopes rest else .ok false

def Predicate.evalAny (context : EvalContext) (scopes : List Json) :
    List Predicate → Except EvalError Bool
  | [] => .ok false
  | first :: rest => do
      if ← first.evalIn context scopes then .ok true else Predicate.evalAny context scopes rest

def Operand.evalIn (context : EvalContext) (scopes : List Json) : Operand → Except EvalError Json
  | .value value => .ok value
  | .field scope path => EvalContext.readField scopes scope path
  | .principal path => .ok (context.readPrincipal path)
  | .future path => .ok (context.readFuture path)
  | .arithmetic op left right => do
      let first ← left.evalIn context scopes
      let second ← right.evalIn context scopes
      .ok (op.apply first second)
  | .negate operand => do
      let value ← operand.evalIn context scopes
      .ok value.negate
  | .list items => do
      let values ← Operand.evalEach context scopes items
      .ok (.array values)
  | .call function arguments => do
      let values ← Operand.evalEach context scopes arguments
      context.call function values
  | .predicate predicate => do
      let value ← predicate.evalIn context scopes
      .ok (.bool value)

def Operand.evalEach (context : EvalContext) (scopes : List Json) :
    List Operand → Except EvalError (List Json)
  | [] => .ok []
  | first :: rest => do
      let value ← first.evalIn context scopes
      let values ← Operand.evalEach context scopes rest
      .ok (value :: values)

end

def Predicate.eval (predicate : Predicate) (context : EvalContext) : Except EvalError Bool :=
  predicate.evalIn context [context.record]

theorem Predicate.evalIn_not (context : EvalContext) (scopes : List Json)
    (predicate : Predicate) :
    (Predicate.not predicate).evalIn context scopes =
      (predicate.evalIn context scopes).map fun value => !value := by
  rw [evalIn]
  cases predicate.evalIn context scopes <;> rfl

theorem Predicate.evalIn_negated (context : EvalContext) (scopes : List Json)
    (predicate : Predicate) :
    predicate.negated.evalIn context scopes =
      (predicate.evalIn context scopes).map fun value => !value := by
  cases predicate with
  | not inner =>
      rw [evalIn_not]
      simp only [negated]
      cases inner.evalIn context scopes <;> simp [Except.map]
  | const value => rfl
  | test | and | or | comparison | any => exact evalIn_not context scopes _

end Schemata
