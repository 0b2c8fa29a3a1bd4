import Schemata.Proofs.Typing.Issues
import Schemata.Proofs.Typing.Paths

/-!
# Comparing records

Lowering compares two records by the fields that identify them. That is to ask whether they are the
same record as long as every record that is reached is null or has all of those fields.
-/

set_option autoImplicit false

namespace Schemata

/-- Decide whether two values are the same record of a model, or are both null. -/
def Schema.sameRecord (schema : Schema) (model : Model) (left right : Json) : Bool :=
  match left, right with
  | .null, .null => true
  | .null, _ | _, .null => false
  | left, right => schema.agree model left right

/-- The value is null, or a record that none of the identifying fields is missing of. -/
def Schema.Identifies (schema : Schema) (model : Model) (value : Json) : Prop :=
  value = .null ∨ ∀ field ∈ schema.idFields model, value.memberOrNull field.name.name ≠ .null

namespace Json

@[simp] theorem memberOrNull_null (name : String) : Json.null.memberOrNull name = .null := rfl

@[simp] theorem equal_null_null : Json.null.equal .null = true := rfl

theorem equal_null_left {value : Json} (notNull : value ≠ .null) :
    Json.null.equal value = false := by
  cases value with
  | null => exact absurd rfl notNull
  | bool | int | float | string | array | object => rfl

theorem equal_null_right {value : Json} (notNull : value ≠ .null) :
    value.equal .null = false := by
  cases value with
  | null => exact absurd rfl notNull
  | string text =>
    -- The text may well be an instant, but null is none.
    simp only [equal, equalBy, toFloat?, timeBy?]
    cases Instant.read? text <;> rfl
  | bool | int | float | array | object => rfl

end Json

theorem Schema.idFields_congr {schema : Schema} {left right : Model}
    (same : left.name.name = right.name.name) : schema.idFields left = schema.idFields right := by
  have fieldOf : schema.field? left = schema.field? right := by
    funext name
    rw [field?, field?, fields, fields, same]
  rw [idFields, idFields, fields, fields, attributes, attributes, same, fieldOf]

theorem Schema.Identifies.congr {schema : Schema} {left right : Model} {value : Json}
    (identified : schema.Identifies left value) (same : left.name.name = right.name.name) :
    schema.Identifies right value := by
  rw [Identifies, ← idFields_congr same]
  exact identified

theorem Schema.Identifies.memberOrNull_ne {schema : Schema} {model : Model} {value : Json}
    {field : Field} (identified : schema.Identifies model value) (notNull : value ≠ .null)
    (member : field ∈ schema.idFields model) : value.memberOrNull field.name.name ≠ .null :=
  identified.resolve_left notNull field member

theorem Schema.agree_eq_sameRecord {schema : Schema} {model : Model} {left right : Json}
    (hasFields : schema.idFields model ≠ []) (leftIdentified : schema.Identifies model left)
    (rightIdentified : schema.Identifies model right) :
    schema.agree model left right = schema.sameRecord model left right := by
  obtain ⟨field, rest, fields⟩ := List.exists_cons_of_ne_nil hasFields
  have member : field ∈ schema.idFields model := by simp [fields]
  -- Null has only members that are null, and these equal no identifying field of a record.
  by_cases leftNull : left = .null
  · by_cases rightNull : right = .null
    · simp [leftNull, rightNull, agree, sameRecord]
    · have present := rightIdentified.memberOrNull_ne rightNull member
      have differ : schema.sameRecord model .null right = false := by
        cases right <;> first | rfl | exact absurd rfl rightNull
      simp [leftNull, differ, agree, fields, Json.equal_null_left present]
  · by_cases rightNull : right = .null
    · have present := leftIdentified.memberOrNull_ne leftNull member
      have differ : schema.sameRecord model left .null = false := by
        cases left <;> first | rfl | exact absurd rfl leftNull
      simp [rightNull, differ, agree, fields, Json.equal_null_right present]
    · cases left <;> cases right <;> first | rfl | contradiction

/--
While an expression is interpreted, a part of it is reached with a stack. Nothing is reached behind
an error, nor behind an operand or an item that settles the answer.
-/
inductive Expr.Reaches (meaning : Interpretation) : Stack → Expr → Stack → Expr → Prop
  | self (stack : Stack) (expr : Expr) : Reaches meaning stack expr stack expr
  | object {stack inner : Stack} {object part : Expr} {member : Ident} {span : Span}
      (reached : Reaches meaning stack object inner part) :
      Reaches meaning stack (.access object member span) inner part
  | operand {stack inner : Stack} {op : UnaryOp} {operand part : Expr} {span : Span}
      (reached : Reaches meaning stack operand inner part) :
      Reaches meaning stack (.unary op operand span) inner part
  | left {stack inner : Stack} {op : BinaryOp} {left right part : Expr} {span : Span}
      (reached : Reaches meaning stack left inner part) :
      Reaches meaning stack (.binary op left right span) inner part
  | right {stack inner : Stack} {op : BinaryOp} {left right part : Expr} {span : Span}
      {value : Json} (evaluated : left.interpretWith meaning stack = .ok value)
      (goesOn : op.isLogical = true → value.isTrue = (op == .and))
      (reached : Reaches meaning stack right inner part) :
      Reaches meaning stack (.binary op left right span) inner part
  | argument {stack inner : Stack} {function : Ident} {before after : List Argument}
      {argument : Argument} {part : Expr} {span : Span}
      (evaluated : function.name ≠ "auth" ∧ function.name ≠ "future")
      (goesOn : ∀ earlier ∈ before, ∃ value, earlier.value.interpretWith meaning stack = .ok value)
      (reached : Reaches meaning stack argument.value inner part) :
      Reaches meaning stack (.call function (before ++ argument :: after) span) inner part
  | item {stack inner : Stack} {before after : List Expr} {item part : Expr} {span : Span}
      (goesOn : ∀ earlier ∈ before, ∃ value, earlier.interpretWith meaning stack = .ok value)
      (reached : Reaches meaning stack item inner part) :
      Reaches meaning stack (.list (before ++ item :: after) span) inner part
  | collection {stack inner : Stack} {collection condition part : Expr} {quantifier : Quantifier}
      {span : Span} (reached : Reaches meaning stack collection inner part) :
      Reaches meaning stack (.quantified collection quantifier condition span) inner part
  | condition {stack inner : Stack} {collection condition part : Expr} {quantifier : Quantifier}
      {span : Span} {model : Model} {value item : Json} {before after : List Json}
      (evaluated : collection.interpretWith meaning stack = .ok value)
      (element : (collection.typeIn meaning.schema stack.scope).kind = .model model)
      (elements : value.elements = before ++ item :: after)
      (goesOn : ∀ earlier ∈ before,
        (condition.interpretWith meaning (.element model earlier :: stack)).map Json.isTrue =
          .ok (quantifier == .all))
      (reached : Reaches meaning (.element model item :: stack) condition inner part) :
      Reaches meaning stack (.quantified collection quantifier condition span) inner part

def Expr.KeepsIdentity (meaning : Interpretation) (stack : Stack) (expr : Expr) : Prop :=
  ∀ inner part model value, expr.Reaches meaning stack inner part →
    (part.typeIn meaning.schema inner.scope).model? = some model →
    part.interpretWith meaning inner = .ok value → meaning.schema.Identifies model value

theorem Quantifier.holds_congr {quantifier : Quantifier} {test other : Json → Except EvalError Bool}
    {items : List Json}
    (each : ∀ before item after, items = before ++ item :: after →
      (∀ earlier ∈ before, test earlier = .ok (quantifier == .all)) → other item = test item) :
    quantifier.holds other items = quantifier.holds test items := by
  cases quantifier with
  | any => exact anyM_congr_reached each
  | all => exact allM_congr_reached each
  | none => rw [holds, holds, anyM_congr_reached each]

section

variable {schema : Schema} {scope : Scope} {left right : Operand}

theorem Lower.paths_of_compareRecords {op : Comparison} {model : Model} {predicate : Predicate}
    (lowered : compareRecords schema op model left right = .ok predicate) :
    schema.idFields model ≠ [] ∧ left.isPath ∧ right.isPath := by
  unfold compareRecords at lowered
  split at lowered
  · cases lowered
  next fields nonempty =>
    obtain ⟨field, rest, shape⟩ := List.exists_cons_of_ne_nil nonempty
    obtain ⟨comparisons, members, _⟩ := Except.bind_eq_ok.1 lowered
    rw [shape] at members
    obtain ⟨head, compared, _⟩ := Except.bind_eq_ok.1 members
    obtain ⟨first, firstRead, compared⟩ := Except.bind_eq_ok.1 compared
    obtain ⟨second, secondRead, _⟩ := Except.bind_eq_ok.1 compared
    exact ⟨nonempty, isPath_of_access firstRead, isPath_of_access secondRead⟩

theorem Lower.models_of_comparedModel? {op : Comparison} {left right : Expr} {model : Model}
    (compared : comparedModel? schema scope op left right = some model)
    (leftKnown : (left.typeIn schema scope).IsKnown)
    (rightKnown : (right.typeIn schema scope).IsKnown)
    (fits : (left.typeIn schema scope).comparable (right.typeIn schema scope) = true) :
    (∃ first, (left.typeIn schema scope).model? = some first ∧
        first.name.name = model.name.name) ∧
      ∃ second, (right.typeIn schema scope).model? = some second ∧
        second.name.name = model.name.name := by
  unfold comparedModel? at compared
  split at compared
  next =>
    -- The model is that of one side, and the other side fits it.
    rcases Option.or_eq_some_iff.1 compared with found | ⟨_, found⟩
    · exact ⟨⟨model, found, rfl⟩, ValueType.model?_of_comparable fits leftKnown rightKnown found⟩
    · rw [ValueType.comparable_comm] at fits
      exact ⟨ValueType.model?_of_comparable fits rightKnown leftKnown found, ⟨model, found, rfl⟩⟩
  next => cases compared

theorem Lower.isEquality_of_comparedModel? {op : Comparison} {left right : Expr} {model : Model}
    (compared : comparedModel? schema scope op left right = some model) :
    op = .eq ∨ op = .ne := by
  unfold comparedModel? at compared
  split at compared
  next holds =>
    simp only [Bool.and_eq_true, Bool.or_eq_true, beq_iff_eq] at holds
    exact holds.1.1
  next => cases compared

end

def Interpretation.byIdentity (meaning : Interpretation) : Interpretation :=
  { meaning with sameRecord := meaning.schema.sameRecord }

theorem Expr.KeepsIdentity.of_reaches {meaning : Interpretation} {stack inner : Stack}
    {expr part : Expr} (keeps : expr.KeepsIdentity meaning stack)
    (reached : ∀ {last : Stack} {rest : Expr}, part.Reaches meaning inner last rest →
      expr.Reaches meaning stack last rest) : part.KeepsIdentity meaning inner :=
  fun last rest model value further => keeps last rest model value (reached further)

def Expr.AgreesByIdentity (meaning : Interpretation) (stack : Stack) (expr : Expr) : Prop :=
  expr.KeepsIdentity meaning.byIdentity stack →
    expr.interpretWith meaning stack = expr.interpretWith meaning.byIdentity stack

section

variable {meaning : Interpretation} {stack : Stack} {span : Span}

theorem Expr.agreesByIdentity_call {function : Ident} {arguments : List Argument}
    (notAuth : function.name ≠ "auth") (notFuture : function.name ≠ "future")
    (builtIn : Lower.inlinable? meaning.schema function.name = none)
    (each : ∀ argument ∈ arguments, argument.value.AgreesByIdentity meaning stack) :
    (Expr.call function arguments span).AgreesByIdentity meaning stack := by
  intro keeps
  have values : (Argument.interpretEach meaning stack arguments).mapM id =
      (Argument.interpretEach meaning.byIdentity stack arguments).mapM id := by
    rw [Argument.interpretEach_eq_map, Argument.interpretEach_eq_map]
    apply mapM_congr_reached
    rintro before argument after rfl goesOn
    exact each argument (by simp) (keeps.of_reaches (.argument ⟨notAuth, notFuture⟩ goesOn))
  rw [interpretWith_call _ _ _ _ notAuth notFuture, interpretWith_call _ _ _ _ notAuth notFuture]
  rw [Lower.inlinable?_eq] at builtIn
  simp only [Interpretation.call, Interpretation.byIdentity, builtIn] at values ⊢
  rw [values]

theorem Expr.agreesByIdentity_list {items : List Expr}
    (each : ∀ item ∈ items, item.AgreesByIdentity meaning stack) :
    (Expr.list items span).AgreesByIdentity meaning stack := by
  intro keeps
  have values : (items.map (interpretWith meaning stack)).mapM id =
      (items.map (interpretWith meaning.byIdentity stack)).mapM id := by
    apply mapM_congr_reached
    rintro before item after rfl goesOn
    exact each item (by simp) (keeps.of_reaches (.item goesOn))
  rw [interpretWith, interpretWith, Expr.interpretEach_eq_map, Expr.interpretEach_eq_map, values]

theorem Expr.agreesByIdentity_quantified {collection condition : Expr} {quantifier : Quantifier}
    {model : Model} (kind : (collection.typeIn meaning.schema stack.scope).kind = .model model)
    (collectionAgrees : collection.AgreesByIdentity meaning stack)
    (conditionAgrees : ∀ item, condition.AgreesByIdentity meaning (.element model item :: stack)) :
    (Expr.quantified collection quantifier condition span).AgreesByIdentity meaning stack := by
  intro keeps
  rw [interpretWith, interpretWith, collectionAgrees (keeps.of_reaches .collection)]
  cases evaluated : collection.interpretWith meaning.byIdentity stack with
  | error error => rfl
  | ok value =>
    have answers : quantifier.holds (fun item => do
          let result ← condition.interpretWith meaning (.element model item :: stack)
          .ok result.isTrue) value.elements =
        quantifier.holds (fun item => do
          let result ← condition.interpretWith meaning.byIdentity (.element model item :: stack)
          .ok result.isTrue) value.elements := by
      apply Quantifier.holds_congr
      intro before item after elements goesOn
      rw [conditionAgrees item (keeps.of_reaches (.condition evaluated kind elements goesOn))]
    simp only [Interpretation.byIdentity, bind, Except.bind, kind] at answers ⊢
    rw [answers]

end

section

variable {lowering : LowerContext} {context : EvalContext}
  {apply : FunctionDecl → List Evaluated → Evaluated} {stack : Stack}

theorem Typing.comparable_of_clean {op : BinaryOp} {left right : ValueType} {span : Span}
    (equality : op = .eq ∨ op = .ne)
    (clean : (Typing.binary op left right span).diagnostics = []) :
    left.comparable right = true := by
  rcases equality with rfl | rfl <;>
  · simp only [binary, BinaryOp.isLogical, BinaryOp.isArithmetic, BinaryOp.isRelational,
      Bool.false_eq_true, if_false, Checked.diagnostics_bind, List.append_eq_nil_iff,
      reportUnless, reportIf] at clean
    cases fits : left.comparable right with
    | true => rfl
    | false => simp [fits] at clean

theorem BinaryOp.eq_or_ne_of_comparison? {op : BinaryOp} {comparison : Comparison}
    (found : op.comparison? = some comparison) (equality : comparison = .eq ∨ comparison = .ne) :
    op = .eq ∨ op = .ne := by
  rcases equality with rfl | rfl <;> cases op <;> simp_all [comparison?]

theorem Interpretation.operate_byIdentity {op : BinaryOp} {comparison : Comparison}
    {left right : Expr} {span : Span} {first second : Operand} {predicate : Predicate}
    {value other : Json} (context : EvalContext)
    (apply : FunctionDecl → List Evaluated → Evaluated)
    (fields : lowering.schema.HasKnownFields) (carries : stack.scope.CarriesValues)
    (noBodies : ∀ name ∈ (Expr.binary op left right span).calls,
      Lower.inlinable? lowering.schema name = none)
    (clean : ((Expr.binary op left right span).check lowering.schema true
      stack.scope).diagnostics = [])
    (isComparison : op.comparison? = some comparison)
    (leftLowered : left.lowerWith lowering stack.scope = .ok first)
    (rightLowered : right.lowerWith lowering stack.scope = .ok second)
    (compared : Lower.compare lowering.schema comparison
      (Lower.comparedModel? lowering.schema stack.scope comparison left right) first second =
        .ok predicate)
    (leftIdentified : ∀ model, (left.typeIn lowering.schema stack.scope).model? = some model →
      lowering.schema.Identifies model value)
    (rightIdentified : ∀ model, (right.typeIn lowering.schema stack.scope).model? = some model →
      lowering.schema.Identifies model other) :
    (lowering.meaning context apply).operate stack.scope op left right value other =
      (lowering.meaning context apply).byIdentity.operate stack.scope op left right value
        other := by
  simp only [operate_comparison isComparison, byIdentity, LowerContext.meaning]
  split
  next model found =>
    rw [found] at compared
    obtain ⟨hasFields, leftPath, rightPath⟩ := Lower.paths_of_compareRecords compared
    have equality := BinaryOp.eq_or_ne_of_comparison? isComparison
      (Lower.isEquality_of_comparedModel? found)
    simp only [Expr.check, Checked.diagnostics_bind, List.append_eq_nil_iff] at clean
    obtain ⟨leftClean, rightClean, clean⟩ := clean
    -- A side of an unknown type would be compared without being a record. But both sides have
    -- members to compare, so they are paths, and paths without issues are of known types.
    have leftKnown := left.isKnown_of_isPath fields carries rfl first
      (fun name called => noBodies name (List.mem_append_left _ called)) leftClean leftLowered
      leftPath
    have rightKnown := right.isKnown_of_isPath fields carries rfl second
      (fun name called => noBodies name (List.mem_append_right _ called)) rightClean rightLowered
      rightPath
    have fits := Typing.comparable_of_clean equality clean
    obtain ⟨⟨leftModel, leftIs, leftName⟩, rightModel, rightIs, rightName⟩ :=
      Lower.models_of_comparedModel? found leftKnown rightKnown fits
    rw [Schema.agree_eq_sameRecord hasFields ((leftIdentified leftModel leftIs).congr leftName)
      ((rightIdentified rightModel rightIs).congr rightName)]
  next => rfl

theorem Expr.agreesByIdentity_binary {op : BinaryOp} {left right : Expr} {span : Span}
    {operand : Operand} (fields : lowering.schema.HasKnownFields)
    (carries : stack.scope.CarriesValues)
    (noBodies : ∀ name ∈ (Expr.binary op left right span).calls,
      Lower.inlinable? lowering.schema name = none)
    (clean : ((Expr.binary op left right span).check lowering.schema true
      stack.scope).diagnostics = [])
    (lowered : (Expr.binary op left right span).lowerWith lowering stack.scope = .ok operand)
    (leftAgrees : left.AgreesByIdentity (lowering.meaning context apply) stack)
    (rightAgrees : right.AgreesByIdentity (lowering.meaning context apply) stack) :
    (Expr.binary op left right span).AgreesByIdentity (lowering.meaning context apply) stack := by
  intro keeps
  rw [interpretWith, interpretWith, leftAgrees (keeps.of_reaches .left)]
  cases evaluated : left.interpretWith (lowering.meaning context apply).byIdentity stack with
  | error error => rfl
  | ok value =>
    -- The left operand is reached in any case, the right one only if the left one has a value
    -- and leaves the answer open.
    have leftIdentified : ∀ model,
        (left.typeIn lowering.schema stack.scope).model? = some model →
          lowering.schema.Identifies model value := by
      intro model isModel
      exact keeps stack left model value (.left (.self stack left)) isModel evaluated
    simp only [bind, Except.bind]
    cases settled : op.settled? value with
    | some answer => rfl
    | none =>
      have goesOn : op.isLogical = true → value.isTrue = (op == .and) := by
        simpa [BinaryOp.settled?_eq] using settled
      simp only [rightAgrees (keeps.of_reaches (.right evaluated goesOn))]
      cases other : right.interpretWith (lowering.meaning context apply).byIdentity stack with
      | error error => rfl
      | ok result =>
        have rightIdentified : ∀ model,
            (right.typeIn lowering.schema stack.scope).model? = some model →
              lowering.schema.Identifies model result := by
          intro model isModel
          exact keeps stack right model result (.right evaluated goesOn (.self stack right))
            isModel other
        refine congrArg Except.ok ?_
        cases lowers_of_lowerWith lowered with
        | arithmetic isArithmetic =>
          rw [Interpretation.operate_arithmetic isArithmetic,
            Interpretation.operate_arithmetic isArithmetic]
        | comparison _ isComparison leftLowered rightLowered compared =>
          exact Interpretation.operate_byIdentity context apply fields carries noBodies clean
            isComparison leftLowered rightLowered compared leftIdentified rightIdentified
        | logical notArithmetic notComparison =>
          have isLogical := BinaryOp.isLogical_iff.2 ⟨notArithmetic, notComparison⟩
          rw [Interpretation.operate_logical isLogical, Interpretation.operate_logical isLogical]

theorem Expr.interpretWith_byIdentity (fields : lowering.schema.HasKnownFields) (expr : Expr) :
    ∀ (stack : Stack) (operand : Operand), stack.scope.CarriesValues →
      (∀ name ∈ expr.calls, Lower.inlinable? lowering.schema name = none) →
      (expr.check lowering.schema true stack.scope).diagnostics = [] →
      expr.lowerWith lowering stack.scope = .ok operand →
      expr.KeepsIdentity (lowering.meaning context apply).byIdentity stack →
      expr.interpretWith (lowering.meaning context apply) stack =
        expr.interpretWith (lowering.meaning context apply).byIdentity stack := by
  have parts := inherited_clean lowering.schema true
  -- Identity is kept for the parts that are reached, and only those are evaluated: each case takes
  -- what is reached from a part for what is reached from the whole.
  induction expr using Expr.inductionOn with
  | literal | this | reference =>
    intros
    simp only [interpretWith]
    try rfl
  | access object member span ih =>
    intro stack operand carries noBodies clean lowered keeps
    cases lowers_of_lowerWith lowered with
    | access objectLowered =>
      rw [interpretWith, interpretWith, ih stack _ carries noBodies (parts.object clean)
        objectLowered (keeps.of_reaches .object)]
  | unary op inner span ih =>
    intro stack operand carries noBodies clean lowered keeps
    cases lowers_of_lowerWith lowered with
    | negate partLowered | not partLowered =>
      rw [interpretWith, interpretWith, ih stack _ carries noBodies (parts.operand clean)
        partLowered (keeps.of_reaches .operand)]
  | binary op left right span leftIh rightIh =>
    intro stack operand carries noBodies clean lowered
    obtain ⟨first, second, leftLowered, rightLowered⟩ :
        ∃ first second, left.lowerWith lowering stack.scope = .ok first ∧
          right.lowerWith lowering stack.scope = .ok second := by
      cases lowers_of_lowerWith lowered with
      | arithmetic _ leftLowered rightLowered
      | comparison _ _ leftLowered rightLowered
      | logical _ _ leftLowered rightLowered => exact ⟨_, _, leftLowered, rightLowered⟩
    exact agreesByIdentity_binary fields carries noBodies clean lowered
      (leftIh stack first carries (fun name called => noBodies name
        (List.mem_append_left _ called)) (parts.left clean) leftLowered)
      (rightIh stack second carries (fun name called => noBodies name
        (List.mem_append_right _ called)) (parts.right clean) rightLowered)
  | call function arguments span ih =>
    intro stack operand carries noBodies clean lowered
    cases lowers_of_lowerWith lowered with
    | auth isAuth =>
      intro _
      rw [interpretWith_auth _ _ _ _ isAuth, interpretWith_auth _ _ _ _ isAuth]
      rfl
    | future isFuture =>
      intro _
      rw [interpretWith_future _ _ _ _ isFuture, interpretWith_future _ _ _ _ isFuture]
      rfl
    | call notAuth notFuture argumentsLowered =>
      refine agreesByIdentity_call notAuth notFuture (noBodies function.name List.mem_cons_self) ?_
      intro argument listed
      obtain ⟨part, partLowered⟩ :=
        Argument.lowered_of_lowerAllWith argumentsLowered argument listed
      exact ih argument listed stack part carries
        (fun name called => noBodies name
          (List.mem_cons_of_mem _ (Argument.mem_callsOfAll listed called)))
        (parts.argument notAuth notFuture listed clean) partLowered
  | list items span ih =>
    intro stack operand carries noBodies clean lowered
    cases lowers_of_lowerWith lowered with
    | list itemsLowered =>
      refine agreesByIdentity_list fun item listed => ?_
      obtain ⟨part, partLowered⟩ := Expr.lowered_of_lowerAllWith itemsLowered item listed
      exact ih item listed stack part carries
        (fun name called => noBodies name (mem_callsOfAll listed called))
        (parts.item listed clean) partLowered
  | quantified collection quantifier condition span collectionIh conditionIh =>
    intro stack operand carries noBodies clean lowered
    cases lowers_of_lowerWith lowered with
    | @quantified _ _ _ _ model items inner element collectionLowered conditionLowered =>
      have kind := Lower.elementModel_eq_ok element
      refine agreesByIdentity_quantified kind ?_ fun item => ?_
      · exact collectionIh stack items carries
          (fun name called => noBodies name (List.mem_append_left _ called))
          (parts.collection clean) collectionLowered
      · exact conditionIh (.element model item :: stack) inner
          (List.forall_mem_cons.2 ⟨rfl, carries⟩)
          (fun name called => noBodies name (List.mem_append_right _ called))
          (parts.condition kind clean) conditionLowered

end

end Schemata
