import Schemata.Proofs.Lowering.Parts
import Schemata.Proofs.Typing.Issues

set_option autoImplicit false

namespace Schemata

namespace Lower

/--
A property of predicates and one of operands, each with so many values in scope, that are kept
wherever lowering puts a predicate together.
-/
structure Invariant (predicates : Nat → Predicate → Prop) (operands : Nat → Operand → Prop) :
    Prop where
  const : ∀ bound value, predicates bound (.const value)
  asPredicate : ∀ {bound operand}, operands bound operand → predicates bound operand.asPredicate
  negated : ∀ bound {predicate}, predicates bound predicate → predicates bound predicate.negated
  and : ∀ {bound parts}, (∀ part ∈ parts, predicates bound part) → predicates bound (.and parts)
  comparison : ∀ {bound op left right}, operands bound left → operands bound right →
    predicates bound (.comparison op left right)
  any : ∀ {bound collection predicate}, operands bound collection →
    predicates (bound + 1) predicate → predicates bound (.any collection predicate)
  member : ∀ {bound object operand name}, operands bound object →
    object.member? name = some operand → operands bound operand

namespace Invariant

variable {predicates : Nat → Predicate → Prop} {operands : Nat → Operand → Prop}
  (kept : Invariant predicates operands) (bound : Nat)

include kept

theorem of_expr (expr : Expr) {operand : Operand} (holds : operands bound operand) :
    predicates bound (Lower.asPredicate expr operand) := by
  unfold Lower.asPredicate
  split
  · exact kept.const _ _
  · exact kept.asPredicate holds

theorem quantify (quantifier : Quantifier) {collection : Operand} {condition : Predicate}
    (outside : operands bound collection) (inside : predicates (bound + 1) condition) :
    predicates bound (Lower.quantify quantifier collection condition) := by
  cases quantifier with
  | any => exact kept.any outside inside
  | all => exact kept.negated _ (kept.any outside (kept.negated _ inside))
  | none => exact kept.negated _ (kept.any outside inside)

theorem access {object operand : Operand} {name : String} (holds : operands bound object)
    (lowered : Lower.access object name = .ok operand) : operands bound operand := by
  unfold Lower.access at lowered
  split at lowered
  next inner read =>
    cases lowered
    exact kept.member holds read
  next => cases lowered

theorem compareMembers {left right : Operand} (first : operands bound left)
    (second : operands bound right) (fields : List Field) :
    ∀ comparisons, Lower.compareMembers left right fields = .ok comparisons →
      ∀ comparison ∈ comparisons, predicates bound comparison := by
  induction fields with
  | nil =>
    rintro comparisons ⟨⟩
    exact nofun
  | cons field rest ih =>
    intro comparisons lowered
    obtain ⟨head, compared, lowered⟩ := Except.bind_eq_ok.1 lowered
    obtain ⟨others, behind, lowered⟩ := Except.bind_eq_ok.1 lowered
    obtain ⟨one, oneRead, compared⟩ := Except.bind_eq_ok.1 compared
    obtain ⟨two, twoRead, compared⟩ := Except.bind_eq_ok.1 compared
    cases lowered
    cases compared
    exact List.forall_mem_cons.2
      ⟨kept.comparison (kept.access bound first oneRead) (kept.access bound second twoRead),
        ih others behind⟩

theorem compare {schema : Schema} {op : Comparison} {model? : Option Model}
    {left right : Operand} {predicate : Predicate} (first : operands bound left)
    (second : operands bound right)
    (lowered : Lower.compare schema op model? left right = .ok predicate) :
    predicates bound predicate := by
  unfold Lower.compare at lowered
  split at lowered
  · unfold compareRecords at lowered
    split at lowered
    · cases lowered
    · obtain ⟨comparisons, compared, lowered⟩ := Except.bind_eq_ok.1 lowered
      cases lowered
      have each := kept.compareMembers bound first second _ comparisons compared
      have same : predicates bound (Predicate.ofComparisons comparisons) := by
        unfold Predicate.ofComparisons
        split
        · exact each _ List.mem_cons_self
        · exact kept.and each
      split
      · exact same
      · exact kept.negated _ same
  · cases lowered
    exact kept.comparison first second

end Invariant

/--
A property that is kept wherever lowering puts an operand together, calls and updated records aside.
-/
structure OperandInvariant (predicates : Nat → Predicate → Prop) (operands : Nat → Operand → Prop) :
    Prop extends Invariant predicates operands where
  or : ∀ {bound parts}, (∀ part ∈ parts, predicates bound part) → predicates bound (.or parts)
  value : ∀ bound json, operands bound (.value json)
  field : ∀ {bound place} path, place < bound → operands bound (.field place path)
  principal : ∀ bound, operands bound (.principal [])
  arithmetic : ∀ {bound left right} kind, operands bound left → operands bound right →
    operands bound (.arithmetic kind left right)
  negate : ∀ {bound operand}, operands bound operand → operands bound (.negate operand)
  list : ∀ {bound items}, (∀ item ∈ items, operands bound item) → operands bound (.list items)
  predicate : ∀ {bound predicate}, predicates bound predicate →
    operands bound (.predicate predicate)
  mono : ∀ {bound more operand}, operands bound operand → bound ≤ more → operands more operand

end Lower

theorem Scope.value_lt_of_this? {scope : Scope} {frame value : Nat} {model : Model}
    (found : scope.this? = some (frame, value, model)) : value < scope.valueDepth := by
  induction scope with
  | nil => cases found
  | cons layer outer ih =>
    cases carried : layer.model? with
    | some own =>
      simp only [this?, carried, Option.some.injEq, Prod.mk.injEq] at found
      simp only [valueDepth, carried, Option.isSome_some, if_true]
      omega
    | none =>
      simp only [this?, carried] at found
      have below := ih found
      simp only [valueDepth]
      omega

namespace Lower.OperandInvariant

variable {predicates : Nat → Predicate → Prop} {operands : Nat → Operand → Prop}
  (kept : OperandInvariant predicates operands) {lowering : LowerContext} {scope : Scope}
  {operand : Operand}

include kept

theorem of_this (lowered : this lowering scope = .ok operand) :
    operands (lowering.base + scope.valueDepth) operand := by
  unfold this at lowered
  split at lowered
  next frame value model found =>
    cases lowered
    exact kept.field _ (Nat.add_lt_add_left (Scope.value_lt_of_this? found) _)
  next => cases lowered

/-- An argument was lowered around the body, where no value of the body was in scope. -/
theorem of_reference (arguments : ∀ operand ∈ lowering.arguments, operands lowering.base operand)
    {name : String} (lowered : reference lowering scope name = .ok operand) :
    operands (lowering.base + scope.valueDepth) operand := by
  unfold reference at lowered
  split at lowered
  next frame index param _ =>
    split at lowered
    next argument found =>
      cases lowered
      exact kept.mono (arguments operand (List.mem_of_getElem? found)) (Nat.le_add_right _ _)
    next => cases lowered
  next frame value model field found =>
    cases lowered
    exact kept.field _ (Nat.add_lt_add_left (Scope.valueScope_lt_of_lookup? found) _)
  next =>
    cases lowered
    exact kept.value _ _
  next => cases lowered

/--
What is asked of the expression has to make up for what the property does not say of calls and of
the updated record.
-/
theorem of_lowerWith {asked : Scope → Expr → Prop}
    (inherited : Expr.Inherited lowering.schema asked)
    (arguments : ∀ operand ∈ lowering.arguments, operands lowering.base operand)
    (future : ∀ (scope : Scope) (function : Ident) (given : List Argument) (span : Span),
      function.name = "future" → asked scope (.call function given span) →
        operands (lowering.base + scope.valueDepth) (.future []))
    (call : ∀ (scope : Scope) (function : Ident) (given : List Argument) (span : Span)
      (parts : List Operand) (operand : Operand), function.name ≠ "auth" →
      function.name ≠ "future" → asked scope (.call function given span) →
      parts.length = given.length →
      (∀ part ∈ parts, operands (lowering.base + scope.valueDepth) part) →
      Lower.call lowering scope function.name parts = .ok operand →
        operands (lowering.base + scope.valueDepth) operand) (expr : Expr) :
    ∀ (scope : Scope) (operand : Operand), asked scope expr →
      expr.lowerWith lowering scope = .ok operand →
        operands (lowering.base + scope.valueDepth) operand := by
  -- A condition is lowered with an element in scope, so that the induction is for all scopes.
  induction expr using Expr.inductionOn with
  | literal value span =>
    intro scope operand _ lowered
    cases Expr.lowers_of_lowerWith lowered with
    | literal => exact kept.value _ _
  | this span => exact fun scope operand _ lowered => kept.of_this lowered
  | reference name span => exact fun scope operand _ lowered => kept.of_reference arguments lowered
  | access object member span ih =>
    intro scope operand holds lowered
    cases Expr.lowers_of_lowerWith lowered with
    | access objectLowered read =>
      exact kept.access _ (ih scope _ (inherited.object holds) objectLowered) read
  | unary op inner span ih =>
    intro scope operand holds lowered
    cases Expr.lowers_of_lowerWith lowered with
    | negate partLowered => exact kept.negate (ih scope _ (inherited.operand holds) partLowered)
    | not partLowered =>
      have part := ih scope _ (inherited.operand holds) partLowered
      exact kept.predicate (kept.negated _ (kept.of_expr _ inner part))
  | binary op left right span leftIh rightIh =>
    intro scope operand holds lowered
    have first (part : Operand) := leftIh scope part (inherited.left holds)
    have second (part : Operand) := rightIh scope part (inherited.right holds)
    cases Expr.lowers_of_lowerWith lowered with
    | arithmetic _ leftLowered rightLowered =>
      exact kept.arithmetic _ (first _ leftLowered) (second _ rightLowered)
    | comparison _ _ leftLowered rightLowered compared =>
      exact kept.predicate (kept.compare _ (first _ leftLowered) (second _ rightLowered) compared)
    | @logical _ _ _ _ one other _ _ leftLowered rightLowered =>
      have parts : ∀ part ∈ [asPredicate left one, asPredicate right other],
          predicates (lowering.base + scope.valueDepth) part :=
        List.forall_mem_cons.2 ⟨kept.of_expr _ left (first one leftLowered),
          List.forall_mem_singleton.2 (kept.of_expr _ right (second other rightLowered))⟩
      split
      · exact kept.predicate (kept.and parts)
      · exact kept.predicate (kept.or parts)
  | call function given span ih =>
    intro scope operand holds lowered
    cases Expr.lowers_of_lowerWith lowered with
    | auth => exact kept.principal _
    | future isFuture => exact future scope function given span isFuture holds
    | call notAuth notFuture argumentsLowered called =>
      refine call scope function given span _ operand notAuth notFuture holds
        (Argument.length_of_lowerAllWith argumentsLowered) (fun part found => ?_) called
      obtain ⟨argument, listed, partLowered⟩ :=
        Argument.source_of_lowerAllWith argumentsLowered part found
      exact ih argument listed scope part (inherited.argument notAuth notFuture listed holds)
        partLowered
  | list items span ih =>
    intro scope operand holds lowered
    cases Expr.lowers_of_lowerWith lowered with
    | list itemsLowered =>
      refine kept.list fun part found => ?_
      obtain ⟨item, listed, partLowered⟩ := Expr.source_of_lowerAllWith itemsLowered part found
      exact ih item listed scope part (inherited.item listed holds) partLowered
  | quantified collection quantifier condition span collectionIh conditionIh =>
    intro scope operand holds lowered
    cases Expr.lowers_of_lowerWith lowered with
    | quantified element collectionLowered conditionLowered =>
      have kind := elementModel_eq_ok element
      have outside := collectionIh scope _ (inherited.collection holds) collectionLowered
      have inside := conditionIh _ _ (inherited.condition kind holds) conditionLowered
      exact kept.predicate (kept.quantify _ quantifier outside (kept.of_expr _ condition inside))

end Lower.OperandInvariant

end Schemata
