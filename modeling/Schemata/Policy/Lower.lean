import Schemata.Attribute.Binding
import Schemata.Policy.Bundle
import Schemata.Predicate.Lower
import Schemata.Syntax.Printer

set_option autoImplicit false

namespace Schemata

def Attribute.ruleKind? (applied : Attribute) : Option RuleKind :=
  RuleKind.ofName? (String.ofList (applied.name.name.toList.dropWhile (· == '@')))

def Expr.operations (fieldLevel : Bool) (value : Expr) : List Operation :=
  match value.string?.map (Operation.readList fieldLevel) with
  | some (.ok operations) => operations
  | _ => []

namespace Schema

variable (schema : Schema)

def rule? (applied : Attribute) : Option (RuleKind × Expr × Expr) := do
  let kind ← applied.ruleKind?
  let decl ← schema.symbols.attribute? applied.name.name
  let bounds ← (applied.bind decl).toOption
  let operations ← Bound.value? bounds "operation"
  let condition ← Bound.value? bounds "condition"
  some (kind, operations, condition)

def lowerRule (model : Model) (fieldLevel : Bool) (applied : Attribute) :
    Except LowerError (Option Rule) :=
  match schema.rule? applied with
  | none => .ok none
  | some (kind, operations, condition) => do
      let predicate ← condition.lower schema [.record model]
      .ok (some ⟨kind, operations.operations fieldLevel, predicate, condition.print⟩)

def lowerRules (model : Model) (fieldLevel : Bool) :
    List Attribute → Except LowerError (List Rule)
  | [] => .ok []
  | applied :: rest => do
      let first ← schema.lowerRule model fieldLevel applied
      let others ← lowerRules model fieldLevel rest
      .ok (first.toList ++ others)

def lowerFieldRules (model : Model) :
    List VisibleField → Except LowerError (List (String × List Rule))
  | [] => .ok []
  | visible :: rest => do
      let rules ← schema.lowerRules model true visible.field.attributes
      let others ← lowerFieldRules model rest
      .ok (if rules.isEmpty then others else (visible.name, rules) :: others)

def lowerModel (model : Model) : Except LowerError ModelPolicy := do
  let rules ←
    schema.lowerRules model false ((schema.attributes model).map VisibleAttribute.applied)
  let fieldRules ← schema.lowerFieldRules model (schema.fields model)
  .ok ⟨model.name.name, rules, .ofList fieldRules⟩

def lowerModels : List Model → Except LowerError (List (String × ModelPolicy))
  | [] => .ok []
  | model :: rest => do
      let policy ← schema.lowerModel model
      let others ← lowerModels rest
      .ok ((model.name.name, policy) :: others)

def bundle : Except LowerError Bundle := do
  let policies ← schema.lowerModels (schema.hierarchy.models.filter fun model => !model.isAbstract)
  .ok ⟨.ofList policies⟩

end Schema

end Schemata
