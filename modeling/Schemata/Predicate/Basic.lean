import Schemata.Json.Basic

set_option autoImplicit false

namespace Schemata

inductive Comparison
  | eq
  | ne
  | lt
  | le
  | gt
  | ge
deriving Repr, DecidableEq, Inhabited

namespace Comparison

def all : List Comparison := [.eq, .ne, .lt, .le, .gt, .ge]

def name : Comparison → String
  | .eq => "eq"
  | .ne => "ne"
  | .lt => "lt"
  | .le => "le"
  | .gt => "gt"
  | .ge => "ge"

end Comparison

inductive Arithmetic
  | add
  | sub
  | mul
  | div
deriving Repr, DecidableEq, Inhabited

namespace Arithmetic

def all : List Arithmetic := [.add, .sub, .mul, .div]

def name : Arithmetic → String
  | .add => "add"
  | .sub => "sub"
  | .mul => "mul"
  | .div => "div"

end Arithmetic

mutual

inductive Predicate
  | const (value : Bool)
  | test (operand : Operand)
  | not (predicate : Predicate)
  | and (predicates : List Predicate)
  | or (predicates : List Predicate)
  | comparison (op : Comparison) (left right : Operand)
  | any (collection : Operand) (predicate : Predicate)

inductive Operand
  | value (value : Json)
  /-- The value at a path from the record or the element of a scope. -/
  | field (scope : Nat) (path : List String)
  | principal (path : List String)
  /-- The value at a path from the record after an update. -/
  | future (path : List String)
  | arithmetic (op : Arithmetic) (left right : Operand)
  | negate (operand : Operand)
  | list (items : List Operand)
  | call (function : String) (arguments : List Operand)
  | predicate (predicate : Predicate)

end

deriving instance Repr for Predicate
deriving instance Repr for Operand

instance : Inhabited Predicate := ⟨.const false⟩
instance : Inhabited Operand := ⟨.value .null⟩

namespace Predicate

/-- Negate without stacking negations and without negating a constant. -/
def negated : Predicate → Predicate
  | .not predicate => predicate
  | .const value => .const (!value)
  | other => .not other

def negations (predicate : Predicate) : Nat → List Predicate
  | 0 => []
  | times + 1 => predicate.negated :: predicate.negated.negations times

def ofComparisons : List Predicate → Predicate
  | [only] => only
  | several => .and several

end Predicate

namespace Operand

def member? (name : String) : Operand → Option Operand
  | .field scope path => some (.field scope (path ++ [name]))
  | .principal path => some (.principal (path ++ [name]))
  | .future path => some (.future (path ++ [name]))
  | _ => none

def asPredicate : Operand → Predicate
  | .predicate stated => stated
  | other => .test other

end Operand

end Schemata
