import Schemata.Proofs.Lowering.Inlining
import Schemata.Proofs.Policy.Conditions
import Schemata.Proofs.Typing.Descendants

/-!
# Inherited rules

A rule is checked for the records of the model that declares it, and lowered for those of every
concrete model that extends it. An inheritable condition is a condition on these records too.
-/

set_option autoImplicit false

namespace Schemata

section

variable {document : Document} {options : ValidationOptions} {base model : Model}

/--
The condition of an inherited rule is checked without issues, and has a truth value, for the records
of the model that inherits it, provided that it is inheritable.
-/
theorem Document.isCondition_of_inherited {fieldLevel : Bool} {applied : Attribute}
    (valid : (document.validate options).isValid = true) (member : model ∈ document.models)
    (isExtended : Relation.TransGen document.IsBase base model)
    (declared : base.Declares fieldLevel applied) (isRule : applied.isRule fieldLevel = true) :
    ∃ condition, (Schema.ofDocument document).argument? applied "condition" = some condition ∧
      (condition.isInheritable (.ofDocument document) model [.record base] = true →
        condition.IsCondition (.ofDocument document)
          ((Schema.ofDocument document).isUpdateOnly fieldLevel applied) model) := by
  have isBase : base ∈ document.models := by
    obtain ⟨_, extended, _⟩ := Relation.TransGen.head'_iff.1 isExtended
    exact extended.1
  obtain ⟨condition, given, checked⟩ := document.isCondition_of_declares valid isBase declared isRule
  refine ⟨condition, given, fun inheritable => ?_⟩
  have same := condition.check_descendant (document.sharesFields valid member isExtended) []
    inheritable checked.clean
  constructor
  · exact (congrArg Checked.diagnostics same).trans checked.clean
  · exact (congrArg (fun found => found.value.isBooleanLike) same).trans checked.boolean

end

namespace Staff

open Library Blog

def role : EnumDecl :=
  ⟨ident "Role", ["ADMIN", "MEMBER"].map fun name => ⟨ident name, [], Span.zero⟩, [], Span.zero⟩

def isAdmin : Expr := .binary .eq (reference "role") (reference "ADMIN") Span.zero

/-- `@@allow('read', role == ADMIN)` -/
def rule : Attribute :=
  ⟨ident "@@allow", [.positional (.literal (.string "read") Span.zero), .positional isAdmin],
    Span.zero⟩

def person : Model :=
  ⟨ident "Person", true, [], [key, field "role" (named "Role") []], [rule], Span.zero⟩

def guest : Model :=
  ⟨ident "Guest", false, [ident "Person"], [field "nick" string []], [], Span.zero⟩

/-- A descendant with a field that is named like a member of the enum. -/
def account : Model :=
  ⟨ident "Account", false, [ident "Person"], [field "ADMIN" string []], [], Span.zero⟩

def document : Document := ⟨[.enum role, .model person, .model guest, .model account]⟩

def schema : Schema := Schema.ofDocument document

theorem isBase_guest : document.IsBase person guest :=
  ⟨by simp [document, Document.models], ident "Person", List.mem_singleton.2 rfl, rfl⟩

theorem isBase_account : document.IsBase person account :=
  ⟨by simp [document, Document.models], ident "Person", List.mem_singleton.2 rfl, rfl⟩

end Staff

theorem Staff.isCondition_guest :
    (document.validate .standard).isValid = true ∧ document.IsBase person guest ∧
      isAdmin.IsCondition schema (schema.isUpdateOnly false rule) guest := by
  have valid : (document.validate .standard).isValid = true := by decide +kernel
  have declared : person.Declares false rule := List.mem_singleton.2 rfl
  obtain ⟨condition, given, checked⟩ := document.isCondition_of_inherited valid
    (by simp [document, Document.models]) (.single isBase_guest) declared (by decide +kernel)
  have isCondition : schema.argument? rule "condition" = some isAdmin := rfl
  cases Option.some.inj (given.symm.trans isCondition)
  exact ⟨valid, isBase_guest, checked (by decide +kernel)⟩

/-- For an account, `ADMIN` is a text, and the condition compares the role with it. -/
theorem Staff.not_isCondition_account :
    (document.validate .standard).isValid = true ∧ document.IsBase person account ∧
      person.Declares false rule ∧ rule.isRule false = true ∧
      schema.argument? rule "condition" = some isAdmin ∧
      ¬ isAdmin.IsCondition schema (schema.isUpdateOnly false rule) account := by
  refine ⟨by decide +kernel, isBase_account, List.mem_singleton.2 rfl, by decide +kernel, rfl, ?_⟩
  intro checked
  have issue : (isAdmin.check schema (schema.isUpdateOnly false rule)
      [.record account]).diagnostics ≠ [] := by decide +kernel
  exact issue checked.clean

end Schemata
