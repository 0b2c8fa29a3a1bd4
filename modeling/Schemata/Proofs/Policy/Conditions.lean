import Schemata.Proofs.Policy.Rules
import Schemata.Proofs.Typing.Issues

set_option autoImplicit false

namespace Schemata

def Model.Declares (model : Model) : Bool → Attribute → Prop
  | false, applied => applied ∈ model.attributes
  | true, applied => ∃ field ∈ model.fields, applied ∈ field.attributes

def Schema.isUpdateOnly (schema : Schema) (fieldLevel : Bool) (applied : Attribute) : Bool :=
  (schema.argument? applied "operation").any fun operations =>
    operations.operations fieldLevel == [.update]

structure Expr.IsCondition (schema : Schema) (future : Bool) (model : Model) (expr : Expr) :
    Prop where
  clean : (expr.check schema future [.record model]).diagnostics = []
  boolean : (expr.check schema future [.record model]).value.isBooleanLike = true

variable {document : Document} {options : ValidationOptions} {schema : Schema} {model : Model}
  {fieldLevel : Bool} {applied : Attribute}

theorem Schema.value_checkOperations {site : AttributeSite} {bounds : List Bound}
    {operations condition : Expr} (level : site.isField = fieldLevel)
    (given : RuleBounds schema applied bounds operations condition) :
    (checkOperations site applied bounds).value = schema.isUpdateOnly fieldLevel applied := by
  rw [isUpdateOnly, given.givesOperations, Option.any_some, checkOperations, given.hasOperations,
    ← level]
  simp only [Expr.operations]
  cases operations.string? with
  | none => rfl
  | some text =>
    simp only [Option.map_some]
    cases Operation.readList site.isField text <;> rfl

theorem Schema.isCondition_of_checkAttribute {site : AttributeSite}
    (owner : site.model? = some model) (level : site.isField = fieldLevel)
    (clean : Clean ((ofDocument document).checkAttribute site applied))
    (isRule : applied.isRule fieldLevel = true) :
    ∃ condition, (ofDocument document).argument? applied "condition" = some condition ∧
      condition.IsCondition (ofDocument document)
        ((ofDocument document).isUpdateOnly fieldLevel applied) model := by
  obtain ⟨bounds, operations, condition, given, clean⟩ := policy_of_checkAttribute clean isRule
  rw [checkPolicy, Clean.append, value_checkOperations level given] at clean
  have scope : site.scope = [.record model] := by
    rw [AttributeSite.scope, owner]
    rfl
  simp only [checkCondition, given.hasCondition, scope, Clean.append, notAssignable,
    Clean.reportIf_error, Bool.not_eq_false'] at clean
  exact ⟨condition, given.givesCondition, Expr.eq_nil_of_clean clean.2.1, clean.2.2⟩

theorem Document.isCondition_of_declares (valid : (document.validate options).isValid = true)
    (member : model ∈ document.models) (declared : model.Declares fieldLevel applied)
    (isRule : applied.isRule fieldLevel = true) :
    ∃ condition, (Schema.ofDocument document).argument? applied "condition" = some condition ∧
      condition.IsCondition (.ofDocument document)
        ((Schema.ofDocument document).isUpdateOnly fieldLevel applied) model := by
  obtain ⟨fields, attributes⟩ := document.clean_checkAttribute valid member
  cases fieldLevel with
  | false =>
    have owner : (AttributeSite.model model).model? = some model := rfl
    exact Schema.isCondition_of_checkAttribute owner rfl (attributes applied declared) isRule
  | true =>
    obtain ⟨field, own, declared⟩ := declared
    have owner : (AttributeSite.field model field).model? = some model := rfl
    exact Schema.isCondition_of_checkAttribute owner rfl (fields field own applied declared) isRule

theorem Rule.StatedBy.operations_of_isUpdateOnly {rule : Rule}
    (stated : rule.StatedBy schema model fieldLevel applied)
    (updateOnly : schema.isUpdateOnly fieldLevel applied = true) :
    rule.operations = [.update] := by
  obtain ⟨text, span, given, listed⟩ := stated.operations
  rw [Schema.isUpdateOnly, given, Option.any_some, beq_iff_eq] at updateOnly
  simp only [Expr.operations, Expr.string?, Option.map_some] at updateOnly
  split at updateOnly
  next operations read =>
    exact listed.unique (updateOnly ▸ Operation.listedBy_of_readList (Option.some.inj read))
  next => cases updateOnly

end Schemata
