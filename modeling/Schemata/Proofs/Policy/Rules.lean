import Mathlib.Data.List.Forall2
import Schemata.Policy.Lower
import Schemata.Proofs.Attribute.Binding
import Schemata.Proofs.Policy.Operations
import Schemata.Proofs.Syntax.DocumentForm
import Schemata.Proofs.Syntax.ExprRoundTrip
import Schemata.Proofs.Validation.Clean

set_option autoImplicit false

namespace Schemata

def ruleSigns (fieldLevel : Bool) : String := if fieldLevel then "@" else "@@"

def Attribute.isRule (fieldLevel : Bool) (applied : Attribute) : Bool :=
  RuleKind.all.any fun kind => applied.name.name == ruleSigns fieldLevel ++ kind.name

def Schema.argument? (schema : Schema) (applied : Attribute) (param : String) : Option Expr := do
  let decl ← schema.symbols.attribute? applied.name.name
  let bounds ← (applied.bind decl).toOption
  Bound.value? bounds param

structure Rule.StatedBy (schema : Schema) (model : Model) (fieldLevel : Bool) (applied : Attribute)
    (rule : Rule) : Prop where
  kind : applied.name.name = ruleSigns fieldLevel ++ rule.kind.name
  operations : ∃ text span,
    schema.argument? applied "operation" = some (.literal (.string text) span) ∧
      Operation.ListedBy fieldLevel text rule.operations
  condition : ∃ condition, schema.argument? applied "condition" = some condition ∧
    condition.lower schema [.record model] = .ok rule.predicate ∧
      ∃ again, Expr.read rule.source = .ok again ∧ again.erase = condition.erase

structure Attribute.Checked (schema : Schema) (fieldLevel : Bool) (applied : Attribute) : Prop where
  formed : applied.WellFormed (ruleSigns fieldLevel)
  site : ∃ site : AttributeSite, site.isField = fieldLevel ∧
    Clean (schema.checkAttribute site applied)

variable {document : Document} {schema : Schema} {fieldLevel : Bool} {applied : Attribute}

theorem dropWhile_signs {word : String} (isName : IsName word) (fieldLevel : Bool) :
    String.ofList ((ruleSigns fieldLevel ++ word).toList.dropWhile (· == '@')) = word := by
  obtain ⟨first, others, chars, start⟩ := isName.exists_cons
  have noSign : (first == '@') = false := beq_eq_false_iff_ne.2 (ne_of_test start (by decide))
  -- Only the signs are dropped, since no name starts with one.
  have signs : (ruleSigns fieldLevel).toList.dropWhile (· == '@') = [] := by
    cases fieldLevel <;> rfl
  have kept : word.toList.dropWhile (· == '@') = word.toList := by
    rw [chars, List.dropWhile_cons, noSign]
    rfl
  rw [String.toList_append, List.dropWhile_append, signs, List.isEmpty_nil, if_pos rfl, kept,
    String.ofList_toList]

theorem Attribute.WellFormed.ruleKind?_eq_some_iff
    (formed : applied.WellFormed (ruleSigns fieldLevel)) {kind : RuleKind} :
    applied.ruleKind? = some kind ↔ applied.name.name = ruleSigns fieldLevel ++ kind.name := by
  obtain ⟨word, isName, same⟩ := formed.name
  have kinds : RuleKind.ofName? word = some kind ↔ word = kind.name := by
    constructor
    · intro known
      exact (by simpa using List.find?_some known : kind.name = word).symm
    · rintro rfl
      cases kind <;> decide
  rw [ruleKind?, same, dropWhile_signs isName, kinds]
  constructor
  · rintro rfl
    rfl
  · exact fun equal => by simpa using equal

theorem Attribute.isRule_iff :
    applied.isRule fieldLevel = true ↔
      ∃ kind : RuleKind, applied.name.name = ruleSigns fieldLevel ++ kind.name := by
  rw [isRule, List.any_eq_true]
  constructor
  · rintro ⟨kind, _, same⟩
    exact ⟨kind, by simpa using same⟩
  · rintro ⟨kind, same⟩
    exact ⟨kind, by cases kind <;> decide, by simpa using same⟩

theorem Schema.rule?_eq_some {kind : RuleKind} {operations condition : Expr}
    (isKind : applied.ruleKind? = some kind)
    (hasOperations : schema.argument? applied "operation" = some operations)
    (hasCondition : schema.argument? applied "condition" = some condition) :
    schema.rule? applied = some (kind, operations, condition) := by
  obtain ⟨decl, isDecl, inner⟩ := Option.bind_eq_some_iff.1 hasOperations
  obtain ⟨bounds, isBounds, isOperations⟩ := Option.bind_eq_some_iff.1 inner
  simp only [argument?, isDecl, isBounds, Option.bind_eq_bind, Option.bind_some] at hasCondition
  simp only [rule?, isKind, isDecl, isBounds, isOperations, hasCondition, Option.bind_eq_bind,
    Option.bind_some]

def ruleParams : List AttributeParam :=
  [Library.byPosition "operation" Library.string, Library.byPosition "condition" Library.boolean]

theorem attribute?_rule (document : Document) (fieldLevel : Bool) (kind : RuleKind) :
    ∃ decl, (SymbolTable.ofDocument document).attribute?
        (ruleSigns fieldLevel ++ kind.name) = some decl ∧ decl.params = ruleParams := by
  -- The attributes that state rules are built in, and their names cannot be taken.
  have builtIn : SymbolTable.find? SymbolTable.librarySymbols (ruleSigns fieldLevel ++ kind.name) =
      some ⟨Library.attr (ruleSigns fieldLevel ++ kind.name) ruleParams, .library⟩ := by
    cases fieldLevel <;> cases kind <;> rfl
  have known : (SymbolTable.ofDocument document).symbol? (ruleSigns fieldLevel ++ kind.name) = _ :=
    SymbolTable.symbol?_of_library builtIn
  refine ⟨⟨Library.ident (ruleSigns fieldLevel ++ kind.name), ruleParams, [], Span.zero⟩, ?_, rfl⟩
  rw [SymbolTable.attribute?, SymbolTable.declaration?, known]
  rfl

theorem mem_policyAttributes (fieldLevel : Bool) (kind : RuleKind) :
    Schema.policyAttributes.contains (ruleSigns fieldLevel ++ kind.name) = true := by
  cases fieldLevel <;> cases kind <;> decide

theorem Schema.bind_of_checkAttribute {site : AttributeSite} {decl : AttributeDecl}
    (clean : Clean (schema.checkAttribute site applied))
    (declared : schema.symbols.attribute? applied.name.name = some decl) :
    ∃ bounds, applied.bind decl = .ok bounds ∧ Clean (schema.checkBound site applied bounds) := by
  simp only [checkAttribute, declared] at clean
  split at clean
  next errors failed =>
    have some := Attribute.errors_ne_nil_of_bind failed
    exact absurd (Clean.map_error.1 clean) some
  next bounds bound =>
    split at clean
    next => exact ⟨bounds, bound, clean⟩
    next => simp at clean

theorem Schema.readList_of_checkOperations {site : AttributeSite} {bounds : List Bound}
    {value : Expr}
    (clean : Clean (checkOperations site applied bounds).diagnostics)
    (given : Bound.value? bounds "operation" = some value) :
    ∃ text span operations, value = .literal (.string text) span ∧
      Operation.readList site.isField text = .ok operations := by
  simp only [checkOperations, given] at clean
  split at clean
  next => simp [notAssignable] at clean
  next text isText =>
    split at clean
    next operations read =>
      unfold Expr.string? at isText
      split at isText <;> cases isText
      exact ⟨text, _, operations, rfl, read⟩
    next => simp at clean

structure RuleBounds (schema : Schema) (applied : Attribute) (bounds : List Bound)
    (operations condition : Expr) : Prop where
  bound : ∃ decl, applied.bind decl = .ok bounds
  hasOperations : Bound.value? bounds "operation" = some operations
  givesOperations : schema.argument? applied "operation" = some operations
  hasCondition : Bound.value? bounds "condition" = some condition
  givesCondition : schema.argument? applied "condition" = some condition

theorem Schema.policy_of_checkAttribute {site : AttributeSite}
    (clean : Clean ((ofDocument document).checkAttribute site applied))
    (isRule : applied.isRule fieldLevel = true) :
    ∃ bounds operations condition,
      RuleBounds (ofDocument document) applied bounds operations condition ∧
        Clean ((ofDocument document).checkPolicy site applied bounds) := by
  obtain ⟨kind, named⟩ := Attribute.isRule_iff.1 isRule
  obtain ⟨decl, declared, params⟩ := attribute?_rule document fieldLevel kind
  rw [← named] at declared
  obtain ⟨bounds, bound, clean⟩ := bind_of_checkAttribute clean declared
  -- Both parameters are required, so that binding gives each of them a value.
  have given (param : AttributeParam) (member : param ∈ ruleParams)
      (required : param.isRequired = true) :
      ∃ value, Bound.value? bounds param.name.name = some value ∧
        (ofDocument document).argument? applied param.name.name = some value := by
    obtain ⟨value, found⟩ := Attribute.value?_of_bind bound (params ▸ member) required
    refine ⟨value, found, ?_⟩
    simp only [argument?, ofDocument, declared, bound, Except.toOption,
      Option.bind_eq_bind, Option.bind_some, found]
  obtain ⟨operations, isOperations, hasOperations⟩ :=
    given (Library.byPosition "operation" Library.string) List.mem_cons_self rfl
  obtain ⟨condition, isCondition, hasCondition⟩ :=
    given (Library.byPosition "condition" Library.boolean)
      (List.mem_cons_of_mem _ List.mem_cons_self) rfl
  rw [checkBound, named, if_pos (mem_policyAttributes fieldLevel kind)] at clean
  exact ⟨bounds, operations, condition,
    ⟨⟨decl, bound⟩, isOperations, hasOperations, isCondition, hasCondition⟩, clean⟩

structure RuleArguments (schema : Schema) (fieldLevel : Bool) (applied : Attribute) (text : String)
    (span : Span) (operations : List Operation) (condition : Expr) : Prop where
  givesText : schema.argument? applied "operation" = some (.literal (.string text) span)
  read : Operation.readList fieldLevel text = .ok operations
  givesCondition : schema.argument? applied "condition" = some condition
  formed : condition.WellFormed

theorem Attribute.Checked.arguments
    (checked : applied.Checked (Schema.ofDocument document) fieldLevel)
    (isRule : applied.isRule fieldLevel = true) :
    ∃ text span operations condition,
      RuleArguments (Schema.ofDocument document) fieldLevel applied text span operations
        condition := by
  obtain ⟨site, level, clean⟩ := checked.site
  obtain ⟨bounds, value, condition, given, clean⟩ := Schema.policy_of_checkAttribute clean isRule
  rw [Schema.checkPolicy, Clean.append] at clean
  obtain ⟨text, span, operations, rfl, read⟩ :=
    Schema.readList_of_checkOperations clean.1 given.hasOperations
  obtain ⟨decl, bound⟩ := given.bound
  obtain ⟨argument, member, rfl⟩ := argument_of_bind bound given.hasCondition
  exact ⟨text, span, operations, argument.value, given.givesOperations, level ▸ read,
    given.givesCondition, (checked.formed.arguments argument member).value⟩

namespace Schema

variable {model : Model}

theorem lowerRule_of_isRule (checked : applied.Checked (ofDocument document) fieldLevel)
    (isRule : applied.isRule fieldLevel = true) {lowered : Option Rule}
    (done : (ofDocument document).lowerRule model fieldLevel applied = .ok lowered) :
    ∃ rule, lowered = some rule ∧ rule.StatedBy (ofDocument document) model fieldLevel applied := by
  obtain ⟨kind, named⟩ := Attribute.isRule_iff.1 isRule
  have isKind := checked.formed.ruleKind?_eq_some_iff.2 named
  obtain ⟨text, span, operations, condition, given⟩ := checked.arguments isRule
  rw [lowerRule, rule?_eq_some isKind given.givesText given.givesCondition] at done
  obtain ⟨predicate, compiled, done⟩ := Except.bind_eq_ok.1 done
  cases done
  have listed : Expr.operations fieldLevel (.literal (.string text) span) = operations := by
    simp only [Expr.operations, Expr.string?, Option.map_some, given.read]
  refine ⟨_, rfl, named, ⟨text, span, given.givesText, ?_⟩,
    ⟨condition, given.givesCondition, compiled, condition.readWith_print true given.formed⟩⟩
  rw [listed]
  exact Operation.listedBy_of_readList given.read

theorem lowerRule_of_not_isRule (formed : applied.WellFormed (ruleSigns fieldLevel))
    (noRule : applied.isRule fieldLevel = false) :
    schema.lowerRule model fieldLevel applied = .ok none := by
  have noKind : applied.ruleKind? = none := by
    refine Option.eq_none_iff_forall_ne_some.2 fun kind isKind => ?_
    have named := formed.ruleKind?_eq_some_iff.1 isKind
    exact Bool.false_ne_true (noRule.symm.trans (Attribute.isRule_iff.2 ⟨kind, named⟩))
  rw [lowerRule, rule?, noKind]
  rfl

theorem statedBy_of_lowerRules (attributes : List Attribute) : ∀ rules : List Rule,
    (∀ applied ∈ attributes, applied.Checked (ofDocument document) fieldLevel) →
      (ofDocument document).lowerRules model fieldLevel attributes = .ok rules →
        List.Forall₂ (Rule.StatedBy (ofDocument document) model fieldLevel)
          (attributes.filter (Attribute.isRule fieldLevel)) rules := by
  induction attributes with
  | nil =>
    intro rules _ done
    cases done
    exact .nil
  | cons applied rest ih =>
    intro rules checked done
    obtain ⟨first, here, done⟩ := Except.bind_eq_ok.1 done
    obtain ⟨others, behind, done⟩ := Except.bind_eq_ok.1 done
    cases done
    obtain ⟨checkedHere, checkedRest⟩ := List.forall_mem_cons.1 checked
    have tail := ih others checkedRest behind
    -- An attribute that states a rule takes the next rule; any other one leaves no trace.
    by_cases isRule : applied.isRule fieldLevel = true
    next =>
      obtain ⟨rule, rfl, stated⟩ := lowerRule_of_isRule checkedHere isRule here
      rw [List.filter_cons_of_pos isRule]
      exact .cons stated tail
    next =>
      rw [lowerRule_of_not_isRule checkedHere.formed (by simpa using isRule)] at here
      cases here
      rw [List.filter_cons_of_neg isRule]
      exact tail

end Schema

end Schemata
