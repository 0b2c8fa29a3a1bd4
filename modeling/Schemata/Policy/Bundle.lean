import Schemata.NameMap
import Schemata.Policy.Operation
import Schemata.Predicate.Eval

/-!
# Policy bundles

A bundle holds the rules of every model. A rule that denies wins over all rules that allow. Without
a rule that allows, an operation on a record is denied, while a field is open.
-/

set_option autoImplicit false

namespace Schemata

inductive RuleKind
  | allow
  | deny
deriving Repr, DecidableEq, Inhabited

namespace RuleKind

def all : List RuleKind := [.allow, .deny]

def name : RuleKind → String
  | .allow => "allow"
  | .deny => "deny"

def ofName? (name : String) : Option RuleKind := all.find? (·.name == name)

end RuleKind

structure Rule where
  kind : RuleKind
  operations : List Operation
  predicate : Predicate
  /-- The condition in canonical text. -/
  source : String
deriving Repr, Inhabited

namespace Rule

def covers (rule : Rule) (operation : Operation) : Bool := rule.operations.contains operation

def ofKind (rules : List Rule) (operation : Operation) (kind : RuleKind) : List Rule :=
  rules.filter fun rule => rule.covers operation && rule.kind == kind

def anyHolds (context : EvalContext) (rules : List Rule) : Except EvalError Bool :=
  rules.anyM fun rule => rule.predicate.eval context

/-- Decide an operation. `unguarded` is the answer if no rule allows it. -/
def decide (rules : List Rule) (operation : Operation) (context : EvalContext)
    (unguarded : Bool) : Except EvalError Bool := do
  if ← anyHolds context (ofKind rules operation .deny) then .ok false
  else
    match ofKind rules operation .allow with
    | [] => .ok unguarded
    | allows => anyHolds context allows

end Rule

structure ModelPolicy where
  model : String
  rules : List Rule
  fieldRules : NameMap (List Rule)
deriving Repr, Inhabited

namespace ModelPolicy

def isAllowed (policy : ModelPolicy) (operation : Operation) (context : EvalContext) :
    Except EvalError Bool :=
  Rule.decide policy.rules operation context false

def isFieldAllowed (policy : ModelPolicy) (field : String) (operation : Operation)
    (context : EvalContext) : Except EvalError Bool :=
  match policy.fieldRules.find? field with
  | some rules => Rule.decide rules operation context true
  | none => .ok true

end ModelPolicy

structure Bundle where
  models : NameMap ModelPolicy
deriving Repr, Inhabited

def Bundle.model? (bundle : Bundle) (name : String) : Option ModelPolicy :=
  bundle.models.find? name

end Schemata
