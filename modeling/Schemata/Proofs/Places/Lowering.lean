import Schemata.Policy.Lower
import Schemata.Proofs.Places.Attributes

set_option autoImplicit false

namespace Schemata

structure LowerContext.Erases (erased context : LowerContext) : Prop where
  schema : erased.schema = context.schema.erase
  base : erased.base = context.base
  arguments : erased.arguments = context.arguments
  inline : ∀ decl operands depth,
    erased.inline decl.erase operands depth = context.inline decl operands depth

namespace Lower

section

variable {erased context : LowerContext} (erases : erased.Erases context) (scope : Scope)

include erases

theorem this_erase : this erased (Scope.erase scope) = this context scope := by
  unfold this
  rw [Scope.this?_erase, erases.base]
  cases scope.this? <;> rfl

theorem reference_erase (name : String) :
    reference erased (Scope.erase scope) name = reference context scope name := by
  unfold reference
  rw [erases.schema, Scope.lookup?_erase, erases.base, erases.arguments]
  rcases scope.lookup? context.schema name with _ | _ | _ <;> rfl

theorem call_erase (name : String) (operands : List Operand) :
    call erased (Scope.erase scope) name operands = call context scope name operands := by
  have found : inlinable? erased.schema name =
      (inlinable? context.schema name).map FunctionDecl.erase := by
    simp only [inlinable?, erases.schema, Schema.symbols_erase, SymbolTable.function?_erase,
      SymbolTable.origin?_erase]
    cases context.schema.symbols.function? name with
    | none => rfl
    | some decl =>
      rcases context.schema.symbols.origin? name with _ | _ | _
      · rfl
      · rfl
      · cases body : decl.body <;> simp [body]
  rw [call, found, call, Scope.valueDepth_erase]
  cases inlinable? context.schema name with
  | none => rfl
  | some decl => exact erases.inline decl operands _

end

variable (schema : Schema) (scope : Scope)

theorem asPredicate_erase (expr : Expr) (operand : Operand) :
    asPredicate expr.erase operand = asPredicate expr operand := by
  cases expr with
  | literal value span => cases value <;> rfl
  | _ => rfl

theorem comparedModel?_erase (op : Comparison) (left right : Expr) :
    comparedModel? schema.erase (Scope.erase scope) op left.erase right.erase =
      (comparedModel? schema scope op left right).map Model.erase := by
  simp only [comparedModel?, Expr.isNull_erase, Expr.typeIn_erase, ValueType.model?_erase,
    ← Option.map_or, apply_ite (Option.map Model.erase), Option.map_none]

theorem compareMembers_erase (left right : Operand) (fields : List Field) :
    compareMembers left right (fields.map Field.erase) = compareMembers left right fields := by
  induction fields with
  | nil => rfl
  | cons field rest ih => rw [List.map_cons, compareMembers, compareMembers, ih]; rfl

theorem compare_erase (op : Comparison) (model? : Option Model) (left right : Operand) :
    compare schema.erase op (model?.map Model.erase) left right =
      compare schema op model? left right := by
  cases model? with
  | none => rfl
  | some model =>
    simp only [compare, Option.map_some, compareRecords, Schema.idFields_erase]
    cases schema.idFields model with
    | nil => rfl
    | cons field rest =>
      have members := compareMembers_erase left right (field :: rest)
      rw [List.map_cons] at members
      simp only [List.map_cons, members]

theorem elementModel_erase (collection : Expr) :
    elementModel schema.erase (Scope.erase scope) collection.erase =
      (elementModel schema scope collection).map Model.erase := by
  simp only [elementModel, Expr.typeIn_erase, ValueType.kind_erase]
  cases (collection.typeIn schema scope).kind <;> rfl

end Lower

section

variable (erased context : LowerContext)

def Expr.LowersErased (expr : Expr) : Prop :=
  ∀ scope : Scope, expr.erase.lowerWith erased (Scope.erase scope) = expr.lowerWith context scope

variable {erased context}

theorem Expr.lowerAllWith_erase (scope : Scope) {items : List Expr}
    (lowers : ∀ item ∈ items, item.LowersErased erased context) :
    lowerAllWith erased (Scope.erase scope) (items.map erase) =
      lowerAllWith context scope items := by
  induction items with
  | nil => rfl
  | cons item rest ih =>
    rcases List.forall_mem_cons.1 lowers with ⟨first, others⟩
    rw [List.map_cons, lowerAllWith, lowerAllWith, first scope, ih others]

theorem Argument.lowerAllWith_erase (scope : Scope) {arguments : List Argument}
    (lowers : ∀ argument ∈ arguments, argument.value.LowersErased erased context) :
    lowerAllWith erased (Scope.erase scope) (arguments.map erase) =
      lowerAllWith context scope arguments := by
  induction arguments with
  | nil => rfl
  | cons argument rest ih =>
    rcases List.forall_mem_cons.1 lowers with ⟨first, others⟩
    cases argument with
    | positional value | named _ value =>
      have here : value.LowersErased erased context := first
      rw [List.map_cons, erase, lowerAllWith, lowerAllWith, here scope, ih others]

theorem Expr.lowersErased (erases : erased.Erases context) (expr : Expr) :
    expr.LowersErased erased context := by
  induction expr using Expr.inductionOn with
  | literal value span => exact fun scope => rfl
  | this span => exact fun scope => Lower.this_erase erases scope
  | reference name span => exact fun scope => Lower.reference_erase erases scope name.name
  | access object name span ih =>
    intro scope
    rw [erase, lowerWith, lowerWith, ih scope, Ident.name_erase]
  | unary op operand span ih =>
    intro scope
    cases op <;> simp only [erase, lowerWith, ih scope, Lower.asPredicate_erase]
  | binary op left right span first second =>
    intro scope
    simp only [erase, lowerWith, first scope, second scope, erases.schema,
      Lower.comparedModel?_erase, Lower.compare_erase, Lower.asPredicate_erase]
  | call function arguments span ih =>
    intro scope
    have name : function.erase.name = function.name := rfl
    rw [erase_call]
    by_cases isAuth : function.name = "auth"
    next => rw [lowerWith_auth _ _ _ _ isAuth, lowerWith_auth _ _ _ _ (name.trans isAuth)]
    next =>
      by_cases isFuture : function.name = "future"
      next =>
        rw [lowerWith_future _ _ _ _ isFuture, lowerWith_future _ _ _ _ (name.trans isFuture)]
      next =>
        rw [lowerWith_call _ _ _ _ isAuth isFuture,
          lowerWith_call _ _ _ _ (name ▸ isAuth) (name ▸ isFuture),
          Argument.lowerAllWith_erase scope ih, name]
        simp only [Lower.call_erase erases]
  | list items span ih =>
    intro scope
    rw [erase_list, lowerWith, lowerWith, lowerAllWith_erase scope ih]
  | quantified collection quantifier condition span ih body =>
    intro scope
    rw [erase, lowerWith, lowerWith, erases.schema, Lower.elementModel_erase, ih scope]
    cases Lower.elementModel context.schema scope collection with
    | error error => rfl
    | ok model =>
      have inner := body (.element model :: scope)
      rw [Scope.erase_cons, Frame.erase] at inner
      simp only [Except.map, Lower.asPredicate_erase, inner, Bind.bind, Except.bind]

end

theorem Lower.inlineInside_erase (schema : Schema) (fuel : Nat) :
    ∀ (inlined : List String) (base : Nat) (decl : FunctionDecl) (operands : List Operand)
      (depth : Nat), inlineInside schema.erase fuel inlined base decl.erase operands depth =
        inlineInside schema fuel inlined base decl operands depth := by
  induction fuel with
  | zero =>
    intro inlined base decl operands depth
    rw [inlineInside.eq_def, inlineInside.eq_def]
    rfl
  | succ fuel ih =>
    intro inlined base decl operands depth
    rw [inlineInside.eq_def, inlineInside.eq_def]
    dsimp only
    rw [FunctionDecl.body_erase]
    cases decl.body with
    | none => rfl
    | some body =>
      have erases : LowerContext.Erases
          ⟨schema.erase, base + depth, operands,
            inlineInside schema.erase fuel (decl.name.name :: inlined) (base + depth)⟩
          ⟨schema, base + depth, operands,
            inlineInside schema fuel (decl.name.name :: inlined) (base + depth)⟩ :=
        ⟨rfl, rfl, rfl, ih _ _⟩
      have inside := body.lowersErased erases [.function decl.params]
      simp only [Option.map_some, FunctionDecl.name_erase, Ident.name_erase]
      exact congrArg (ite _ _) inside

@[simp] theorem Expr.lower_erase (schema : Schema) (scope : Scope) (expr : Expr) :
    expr.erase.lower schema.erase (Scope.erase scope) = expr.lower schema scope := by
  have erases : (LowerContext.outside schema.erase).Erases (.outside schema) := by
    refine ⟨rfl, rfl, rfl, fun decl operands depth => ?_⟩
    rw [LowerContext.outside, LowerContext.inside, Schema.symbols_erase, SymbolTable.symbols_erase,
      List.length_map]
    exact Lower.inlineInside_erase schema _ _ _ decl operands depth
  rw [lower, expr.lowersErased erases scope, lower]
  simp only [Lower.asPredicate_erase]

theorem Expr.operations_erase (fieldLevel : Bool) (value : Expr) :
    value.erase.operations fieldLevel = value.operations fieldLevel := by
  rw [operations, string?_erase, operations]

namespace Schema

variable (schema : Schema)

theorem rule?_erase (applied : Attribute) :
    schema.erase.rule? applied.erase =
      (schema.rule? applied).map (Prod.map id (Prod.map Expr.erase Expr.erase)) := by
  have kind : applied.erase.ruleKind? = applied.ruleKind? := rfl
  rw [rule?, kind, rule?]
  cases applied.ruleKind? with
  | none => rfl
  | some kind =>
    cases known : schema.symbols.attribute? applied.name.name with
    | none => simp [known]
    | some decl =>
      have bounds : (applied.erase.bind decl.erase).toOption =
          (applied.bind decl).toOption.map (List.map Bound.erase) := by
        rw [Attribute.bind_erase, toOption_map_mapError]
      simp only [symbols_erase, Attribute.name_erase, Ident.name_erase,
        SymbolTable.attribute?_erase, known, Option.map_some, Option.bind_eq_bind,
        Option.bind_some, bounds, Option.bind_map, Function.comp_def, Bound.value?_erase,
        Option.map_bind, Prod.map_apply, id_eq]

theorem lowerRule_erase (model : Model) (fieldLevel : Bool) (applied : Attribute) :
    schema.erase.lowerRule model.erase fieldLevel applied.erase =
      schema.lowerRule model fieldLevel applied := by
  rw [lowerRule, rule?_erase, lowerRule]
  cases schema.rule? applied with
  | none => rfl
  | some rule =>
    rcases rule with ⟨kind, operations, condition⟩
    have lowered := Expr.lower_erase schema [.record model] condition
    simp only [Scope.erase, List.map_cons, List.map_nil, Frame.erase] at lowered
    simp [lowered, Expr.operations_erase]

theorem lowerRules_erase (model : Model) (fieldLevel : Bool) (attributes : List Attribute) :
    schema.erase.lowerRules model.erase fieldLevel (attributes.map Attribute.erase) =
      schema.lowerRules model fieldLevel attributes := by
  induction attributes with
  | nil => rfl
  | cons applied rest ih => rw [List.map_cons, lowerRules, lowerRules, lowerRule_erase, ih]

theorem lowerFieldRules_erase (model : Model) (fields : List VisibleField) :
    schema.erase.lowerFieldRules model.erase (fields.map VisibleField.erase) =
      schema.lowerFieldRules model fields := by
  induction fields with
  | nil => rfl
  | cons visible rest ih =>
    rw [List.map_cons, lowerFieldRules, lowerFieldRules, VisibleField.field_erase,
      Field.attributes_erase, lowerRules_erase, ih, VisibleField.name_erase]

theorem lowerModel_erase (model : Model) :
    schema.erase.lowerModel model.erase = schema.lowerModel model := by
  have applied : (schema.erase.attributes model.erase).map VisibleAttribute.applied =
      ((schema.attributes model).map VisibleAttribute.applied).map Attribute.erase := by
    simp [Function.comp_def]
  rw [lowerModel, applied, lowerRules_erase, fields_erase, lowerFieldRules_erase, lowerModel]
  rfl

theorem lowerModels_erase (models : List Model) :
    schema.erase.lowerModels (models.map Model.erase) = schema.lowerModels models := by
  induction models with
  | nil => rfl
  | cons model rest ih =>
    rw [List.map_cons, lowerModels, lowerModels, lowerModel_erase, ih]
    rfl

theorem bundle_erase : schema.erase.bundle = schema.bundle := by
  have concrete : schema.erase.hierarchy.models.filter (fun model => !model.isAbstract) =
      (schema.hierarchy.models.filter fun model => !model.isAbstract).map Model.erase := by
    rw [hierarchy_erase, Hierarchy.models_erase, List.filter_map]
    rfl
  rw [bundle, concrete, lowerModels_erase, bundle]

end Schema

end Schemata
