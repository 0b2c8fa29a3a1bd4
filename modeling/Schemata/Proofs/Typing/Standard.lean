import Schemata.Proofs.Lowering.Correctness

/-!
# Types of standard expressions

An expression is standard if it lists no items and calls functions of the library only, save the one
whose result may be anything. Where the check finds no issue in it, each of its parts is of a type
that is known, by rules that say nothing of `Any`.
-/

set_option autoImplicit false

namespace Schemata

/-- The function is of the library, and its result is of a type that the check knows. -/
def Library.isStandard (name : String) : Bool :=
  name != "dbgenerated" && Library.functions.any fun declaration => declaration.name.name == name

mutual

def Expr.isStandard : Expr → Bool
  | .literal _ _ | .this _ | .reference _ _ => true
  | .access object _ _ => object.isStandard
  | .unary _ operand _ => operand.isStandard
  | .binary _ left right _ => left.isStandard && right.isStandard
  | .call function arguments _ =>
      Library.isStandard function.name && Argument.areStandard arguments
  | .list _ _ => false
  | .quantified collection _ condition _ => collection.isStandard && condition.isStandard

def Argument.areStandard : List Argument → Bool
  | [] => true
  | .positional value :: rest | .named _ value :: rest =>
      value.isStandard && Argument.areStandard rest

end

theorem Argument.isStandard_of_areStandard {arguments : List Argument}
    (standard : Argument.areStandard arguments = true) :
    ∀ argument ∈ arguments, argument.value.isStandard = true := by
  induction arguments with
  | nil => exact nofun
  | cons argument rest ih =>
    cases argument with
    | positional value | named name value =>
      rw [areStandard, Bool.and_eq_true] at standard
      exact List.forall_mem_cons.2 ⟨standard.1, ih standard.2⟩

def ValueFunction.result : ValueFunction → Scalar
  | .now => .dateTime
  | _ => .boolean

structure Library.GivesScalar (name : String) (decl : FunctionDecl) (kind : Scalar) : Prop where
  found : SymbolTable.find? SymbolTable.librarySymbols name = some ⟨.function decl, .library⟩
  result : decl.result = scalar kind
  evaluated : ∀ known, ValueFunction.ofName? name = some known → known.result = kind

theorem Library.givesScalar_of_isStandard {name : String} (standard : isStandard name = true)
    (notAuth : name ≠ "auth") (notFuture : name ≠ "future") :
    ∃ decl kind, GivesScalar name decl kind := by
  rw [isStandard, Bool.and_eq_true, bne_iff_ne, List.any_eq_true] at standard
  rcases standard with ⟨notGenerated, declaration, listed, named⟩
  rw [beq_iff_eq] at named
  subst named
  simp only [functions, List.mem_cons, List.not_mem_nil, or_false] at listed
  rcases listed with rfl | rfl | rfl | rfl | rfl | rfl | rfl | rfl | rfl | rfl | rfl | rfl | rfl |
    rfl | rfl
  case inr.inl => exact absurd rfl notAuth
  case inr.inr.inl => exact absurd rfl notFuture
  case inr.inr.inr.inr.inr.inr.inr.inl => exact absurd rfl notGenerated
  all_goals exact ⟨_, _, rfl, rfl, by decide⟩

structure Schema.IsResolved (schema : Schema) : Prop where
  fields : schema.HasKnownFields
  library : ∀ name symbol, SymbolTable.find? SymbolTable.librarySymbols name = some symbol →
    schema.symbols.symbol? name = some symbol

theorem Schema.isResolved_of_isValid {document : Document} {options : ValidationOptions}
    (valid : (document.validate options).isValid = true) :
    (Schema.ofDocument document).IsResolved :=
  ⟨hasKnownFields_of_isValid valid, fun _ _ found => SymbolTable.symbol?_of_library found⟩

def Schema.valueTypeOf (schema : Schema) (field : Field) : ValueType :=
  .ofResolved (schema.typeOf field) field.type.isList

def ResolvedType.IsReadable : ResolvedType → Prop
  | .scalar _ | .enum _ | .model _ => True
  | _ => False

theorem Schema.isKnown_valueTypeOf {schema : Schema} {field : Field}
    (readable : (schema.typeOf field).IsReadable) : (schema.valueTypeOf field).IsKnown := by
  unfold valueTypeOf
  cases type : schema.typeOf field with
  | scalar | enum | model => exact ⟨rfl, rfl⟩
  | _ => rw [type] at readable; cases readable

section

variable {schema : Schema} {name : String} {decl : FunctionDecl} {kind : Scalar}

theorem Schema.IsResolved.function? (resolved : schema.IsResolved)
    (gives : Library.GivesScalar name decl kind) :
    schema.symbols.function? name = some decl := by
  rw [SymbolTable.function?, SymbolTable.declaration?, resolved.library name _ gives.found]
  rfl

theorem Schema.IsResolved.inlinable? (resolved : schema.IsResolved)
    (gives : Library.GivesScalar name decl kind) : Lower.inlinable? schema name = none := by
  rw [Lower.inlinable?, resolved.function? gives, SymbolTable.origin?,
    resolved.library name _ gives.found]
  rfl

end

/--
The rules for the types of standard expressions. A name means a field or a member of an enum, the
sides of an operator are scalars, and a collection is a list of records.
-/
inductive Expr.Typed (schema : Schema) : Scope → Expr → ValueType → Prop
  | literal {scope : Scope} {value : Literal} {span : Span} :
      Typed schema scope (.literal value span) (Typing.literal value)
  | this {scope : Scope} {span : Span} {frame place : Nat} {model : Model}
      (found : scope.this? = some (frame, place, model)) :
      Typed schema scope (.this span) (.model model)
  | field {scope : Scope} {name : Ident} {span : Span} {frame place : Nat} {model : Model}
      {field : Field}
      (found : scope.lookup? schema name.name = some (.field frame place model field))
      (readable : (schema.typeOf field).IsReadable) :
      Typed schema scope (.reference name span) (schema.valueTypeOf field)
  | enumMember {scope : Scope} {name : Ident} {span : Span} {decl : EnumDecl} {member : EnumMember}
      (found : scope.lookup? schema name.name = some (.enumMember decl member)) :
      Typed schema scope (.reference name span) ⟨.enum decl, false⟩
  | access {scope : Scope} {object : Expr} {name : Ident} {span : Span} {model : Model}
      {visible : VisibleField} (inner : Typed schema scope object (.model model))
      (found : schema.field? model name.name = some visible)
      (readable : (schema.typeOf visible.field).IsReadable) :
      Typed schema scope (.access object name span) (schema.valueTypeOf visible.field)
  | not {scope : Scope} {operand : Expr} {span : Span}
      (inner : Typed schema scope operand .boolean) :
      Typed schema scope (.unary .not operand span) .boolean
  | negate {scope : Scope} {operand : Expr} {span : Span} {kind : Scalar}
      (inner : Typed schema scope operand (.scalar kind)) (numeric : kind.isNumeric = true) :
      Typed schema scope (.unary .negate operand span) (.scalar kind)
  | logical {scope : Scope} {op : BinaryOp} {left right : Expr} {span : Span}
      (isLogical : op.isLogical = true) (first : Typed schema scope left .boolean)
      (second : Typed schema scope right .boolean) :
      Typed schema scope (.binary op left right span) .boolean
  | arithmetic {scope : Scope} {op : BinaryOp} {left right : Expr} {span : Span}
      {kind other result : Scalar} (isArithmetic : op.isArithmetic = true)
      (first : Typed schema scope left (.scalar kind))
      (second : Typed schema scope right (.scalar other)) (numeric : kind.isNumeric = true)
      (otherNumeric : other.isNumeric = true)
      (gives : Typing.arithmetic (.scalar kind) (.scalar other) = .scalar result) :
      Typed schema scope (.binary op left right span) (.scalar result)
  | comparison {scope : Scope} {op : BinaryOp} {left right : Expr} {span : Span}
      {type other : ValueType} {comparison : Comparison}
      (isComparison : op.comparison? = some comparison) (first : Typed schema scope left type)
      (second : Typed schema scope right other)
      (fits : op.isEquality = true → type.comparable other = true) :
      Typed schema scope (.binary op left right span) .boolean
  | auth {scope : Scope} {function : Ident} {arguments : List Argument} {span : Span}
      {model : Model} (isAuth : function.name = "auth") (known : schema.principal? = some model) :
      Typed schema scope (.call function arguments span) (.model model)
  | future {scope : Scope} {function : Ident} {arguments : List Argument} {span : Span}
      {model : Model} (isFuture : function.name = "future") (known : scope.record? = some model) :
      Typed schema scope (.call function arguments span) (.model model)
  | call {scope : Scope} {function : Ident} {arguments : List Argument} {span : Span}
      {decl : FunctionDecl} {kind : Scalar} {types : Argument → ValueType}
      (notAuth : function.name ≠ "auth") (notFuture : function.name ≠ "future")
      (gives : Library.GivesScalar function.name decl kind)
      (given : ∀ argument ∈ arguments, Typed schema scope argument.value (types argument)) :
      Typed schema scope (.call function arguments span) (.scalar kind)
  | quantified {scope : Scope} {collection condition : Expr} {quantifier : Quantifier}
      {span : Span} {model : Model} (items : Typed schema scope collection ⟨.model model, true⟩)
      (test : Typed schema (.element model :: scope) condition .boolean) :
      Typed schema scope (.quantified collection quantifier condition span) .boolean

namespace ValueType

variable {type : ValueType}

theorem eq_scalar {kind : Scalar} (single : type.scalar? = some kind) : type = .scalar kind := by
  cases type with
  | mk base isList =>
    cases base <;> cases isList <;> simp_all [scalar?, scalar]

theorem isNumericLike_scalar {kind : Scalar} (numeric : kind.isNumeric = true) :
    (scalar kind).isNumericLike = true := by
  simp [isNumericLike, scalar?, scalar, numeric]

theorem eq_boolean (notAny : type.isAny = false) (fits : type.isBooleanLike = true) :
    type = .boolean := by
  rw [isBooleanLike, notAny, Bool.false_or, beq_iff_eq] at fits
  exact eq_scalar fits

theorem eq_numeric (notAny : type.isAny = false) (fits : type.isNumericLike = true) :
    ∃ kind, type = .scalar kind ∧ kind.isNumeric = true := by
  rw [isNumericLike, notAny, Bool.false_or, Option.any_eq_true] at fits
  rcases fits with ⟨kind, single, numeric⟩
  exact ⟨kind, eq_scalar single, numeric⟩

end ValueType

namespace Typing

variable {schema : Schema} {scope : Scope}

theorem reportUnless_eq_nil {condition : Bool} {span : Span} {issue : TypeIssue}
    (clean : (reportUnless condition span issue).diagnostics = []) : condition = true := by
  cases condition with
  | false => cases clean
  | true => rfl

theorem field_of_readable {field : Field} {span : Span}
    (readable : (schema.typeOf field).IsReadable) :
    Typing.field schema field span = pure (schema.valueTypeOf field) := by
  unfold Typing.field Schema.valueTypeOf
  split
  next unsupported =>
    rw [unsupported] at readable
    cases readable
  next => rfl

theorem readable_of_clean {field : Field} {span : Span}
    (fieldType : (schema.typeOf field).IsFieldType)
    (clean : (Typing.field schema field span).diagnostics = []) :
    (schema.typeOf field).IsReadable := by
  unfold Typing.field at clean
  cases type : schema.typeOf field with
  | unsupported =>
    rw [type] at clean
    cases clean
  | builtin | unresolved =>
    rw [type] at fieldType
    cases fieldType
  | _ => trivial

theorem access_of_field? {model : Model} {name : Ident} {visible : VisibleField}
    (found : schema.field? model name.name = some visible) :
    Typing.access schema (.model model) name = Typing.field schema visible.field name.span := by
  simp [access, ValueType.model, found]

theorem field_of_access {object : ValueType} {name : Ident} (notAny : object.isAny = false)
    (clean : (Typing.access schema object name).diagnostics = []) :
    ∃ model visible, object = .model model ∧ schema.field? model name.name = some visible ∧
      (Typing.field schema visible.field name.span).diagnostics = [] := by
  rcases object with ⟨kind, isList⟩
  cases kind with
  | any => cases notAny
  | model model =>
    cases isList with
    | true => cases clean
    | false =>
      cases found : schema.field? model name.name with
      | none => simp [Typing.access, found] at clean
      | some visible =>
        exact ⟨model, visible, rfl, found, access_of_field? found ▸ clean⟩
  | _ => cases clean

theorem records_of_clean {collection condition : Expr} {quantifier : Quantifier} {span : Span}
    (notAny : (collection.typeIn schema scope).isAny = false)
    (clean : ((Expr.quantified collection quantifier condition span).check schema true
      scope).diagnostics = []) :
    ∃ model, collection.typeIn schema scope = ⟨.model model, true⟩ ∧
      (condition.check schema true (.element model :: scope)).diagnostics = [] ∧
      (condition.typeIn schema (.element model :: scope)).isBooleanLike = true := by
  have inner := (List.append_eq_nil_iff.1 clean).2
  change (collection.check schema true scope).value.isAny = false at notAny
  unfold Expr.typeIn
  generalize (collection.check schema true scope).value = type at notAny inner
  rcases type with ⟨kind, isList⟩
  cases kind with
  | any => cases notAny
  | model model =>
    cases isList with
    | false => cases inner
    | true =>
      have parts := List.append_eq_nil_iff.1 inner
      exact ⟨model, rfl, parts.1, reportUnless_eq_nil (List.append_eq_nil_iff.1 parts.2).1⟩
  | _ => cases inner

theorem arithmetic_of_numeric {kind other : Scalar} (first : kind.isNumeric = true)
    (second : other.isNumeric = true) :
    ∃ result : Scalar, result.isNumeric = true ∧
      Typing.arithmetic (.scalar kind) (.scalar other) = .scalar result := by
  cases kind <;> cases first <;> cases other <;> cases second <;> exact ⟨_, rfl, rfl⟩

end Typing

namespace Expr.Typed

variable {schema : Schema} {scope : Scope} {expr : Expr} {type : ValueType}

theorem isKnown (typed : expr.Typed schema scope type) (notNull : expr.isNull = false) :
    type.IsKnown := by
  cases typed with
  | @literal _ value =>
    cases value with
    | null => cases notNull
    | _ => exact ⟨rfl, rfl⟩
  | field _ readable | access _ _ readable => exact Schema.isKnown_valueTypeOf readable
  | _ => exact ⟨rfl, rfl⟩

theorem notAny (typed : expr.Typed schema scope type) : type.isAny = false := by
  cases isNull : expr.isNull with
  | false => exact (typed.isKnown isNull).notAny
  | true =>
    cases typed with
    | @literal _ value => cases value <;> rfl
    | _ => cases isNull

end Expr.Typed

section

variable {schema : Schema} {scope : Scope}

theorem Expr.typed_reference (resolved : schema.IsResolved) (carries : scope.CarriesValues)
    {name : Ident} {span : Span} (clean : (Typing.reference schema scope name).diagnostics = []) :
    (Expr.reference name span).Typed schema scope (Typing.reference schema scope name).value := by
  unfold Typing.reference at clean ⊢
  split at clean
  next found => exact absurd found carries.lookup?_ne_param
  next found =>
    rcases Scope.visible_of_lookup? found with ⟨visible, listed, rfl⟩
    have readable := Typing.readable_of_clean (resolved.fields _ visible listed) clean
    rw [Typing.field_of_readable readable]
    exact .field found readable
  next found => exact .enumMember found
  next => cases clean

theorem Expr.typed_unary {op : UnaryOp} {operand : Expr} {span : Span} {type : ValueType}
    (inner : operand.Typed schema scope type)
    (clean : (Typing.unary op type span).diagnostics = []) :
    (Expr.unary op operand span).Typed schema scope (Typing.unary op type span).value := by
  cases op with
  | not =>
    simp only [Typing.unary, Checked.diagnostics_bind, List.append_eq_nil_iff] at clean
    have isBoolean := ValueType.eq_boolean inner.notAny (Typing.reportUnless_eq_nil clean.1)
    subst isBoolean
    exact .not inner
  | negate =>
    simp only [Typing.unary] at clean ⊢
    split at clean
    next fits =>
      rw [if_pos fits]
      rcases ValueType.eq_numeric inner.notAny fits with ⟨kind, rfl, numeric⟩
      exact .negate inner numeric
    next => cases clean

theorem Expr.typed_binary {op : BinaryOp} {left right : Expr} {span : Span}
    {type other : ValueType} (first : left.Typed schema scope type)
    (second : right.Typed schema scope other)
    (clean : (Typing.binary op type other span).diagnostics = []) :
    (Expr.binary op left right span).Typed schema scope
      (Typing.binary op type other span).value := by
  cases op
  case and | or =>
    have fits := Typing.reportUnless_eq_nil (List.append_eq_nil_iff.1 clean).1
    rw [Bool.and_eq_true] at fits
    have leftBoolean := ValueType.eq_boolean first.notAny fits.1
    have rightBoolean := ValueType.eq_boolean second.notAny fits.2
    subst leftBoolean rightBoolean
    exact .logical rfl first second
  case add | sub | mul | div =>
    simp only [Typing.binary, BinaryOp.isLogical, BinaryOp.isArithmetic, Bool.false_eq_true,
      if_false, if_true] at clean ⊢
    split at clean
    next fits =>
      rw [Bool.and_eq_true] at fits
      rcases ValueType.eq_numeric first.notAny fits.1 with ⟨kind, rfl, leftNumeric⟩
      rcases ValueType.eq_numeric second.notAny fits.2 with ⟨other, rfl, rightNumeric⟩
      rcases Typing.arithmetic_of_numeric leftNumeric rightNumeric with ⟨result, _, same⟩
      simp only [fits, Bool.and_self, if_true, Checked.value_pure, same]
      exact .arithmetic rfl first second leftNumeric rightNumeric same
    next => cases clean
  case lt | le | gt | ge =>
    refine .comparison rfl first second fun isEquality => ?_
    cases isEquality
  case eq | ne =>
    exact .comparison rfl first second fun _ => Typing.comparable_of_clean (by simp) clean

theorem Expr.typed_call (resolved : schema.IsResolved) {function : Ident}
    {arguments : List Argument} {span : Span} (standard : Library.isStandard function.name = true)
    (each : ∀ argument ∈ arguments, (argument.value.check schema true scope).diagnostics = [] →
      argument.value.Typed schema scope (argument.value.typeIn schema scope))
    (clean : ((Expr.call function arguments span).check schema true scope).diagnostics = []) :
    (Expr.call function arguments span).Typed schema scope
      ((Expr.call function arguments span).typeIn schema scope) := by
  rw [typeIn]
  by_cases isAuth : function.name = "auth"
  next =>
    rw [Expr.check_auth _ _ _ _ _ isAuth] at clean ⊢
    unfold Typing.principal at clean ⊢
    split at clean
    next known => exact .auth isAuth known
    next => cases clean
  next =>
    by_cases isFuture : function.name = "future"
    next =>
      rw [Expr.check_future _ _ _ _ _ isFuture] at clean ⊢
      simp only [Typing.updated, Checked.diagnostics_bind, List.append_eq_nil_iff] at clean
      rw [Typing.updated, Checked.value_bind]
      split
      next known => exact .future isFuture known
      next none => simp [none, Typing.reject] at clean
    next =>
      rcases Library.givesScalar_of_isStandard standard isAuth isFuture with ⟨decl, kind, gives⟩
      have given := Typing.clean_call ⟨isAuth, isFuture⟩ clean
      rw [Expr.check_call _ _ _ _ _ isAuth isFuture (resolved.function? gives)]
      simp only [Checked.value_bind, Checked.value_pure, gives.result]
      exact .call isAuth isFuture gives fun argument found =>
        each argument found (given argument found)

theorem Expr.typeIn_access {object : Expr} {name : Ident} {span : Span} :
    (Expr.access object name span).typeIn schema scope =
      (Typing.access schema (object.typeIn schema scope) name).value := by
  rw [typeIn, check, Checked.value_bind, typeIn]

theorem Expr.typeIn_quantified {collection condition : Expr} {quantifier : Quantifier}
    {span : Span} :
    (Expr.quantified collection quantifier condition span).typeIn schema scope = .boolean := by
  rw [typeIn, check, Checked.value_bind]
  split
  · rfl
  · split <;> rfl
  · rfl

theorem Expr.typed_of_clean (resolved : schema.IsResolved) (expr : Expr) :
    ∀ scope : Scope, scope.CarriesValues → expr.isStandard = true →
      (expr.check schema true scope).diagnostics = [] →
        expr.Typed schema scope (expr.typeIn schema scope) := by
  -- The checks of the parts find nothing either, so that the rules hold of them. No part is of type
  -- `Any` then, and what the check lets pass for `Any` is out of question.
  induction expr using Expr.inductionOn with
  | literal value span => exact fun scope _ _ _ => .literal
  | this span =>
    intro scope _ _ clean
    simp only [typeIn, check, Typing.this] at clean ⊢
    split at clean
    next found => exact .this found
    next => cases clean
  | reference name span => exact fun scope carries _ clean => typed_reference resolved carries clean
  | access object member span ih =>
    intro scope carries standard clean
    simp only [check, Checked.diagnostics_bind, List.append_eq_nil_iff] at clean
    have inner := ih scope carries standard clean.1
    rcases Typing.field_of_access inner.notAny clean.2 with ⟨model, visible, isModel, found, read⟩
    have readable := Typing.readable_of_clean
      (Schema.isFieldType_of_field? resolved.fields found) read
    rw [isModel] at inner
    have given : (Expr.access object member span).typeIn schema scope =
        schema.valueTypeOf visible.field := by
      rw [typeIn_access, isModel, Typing.access_of_field? found,
        Typing.field_of_readable readable, Checked.value_pure]
    rw [given]
    exact .access inner found readable
  | unary op operand span ih =>
    intro scope carries standard clean
    simp only [check, Checked.diagnostics_bind, List.append_eq_nil_iff] at clean
    exact typed_unary (ih scope carries standard clean.1) clean.2
  | binary op left right span leftIh rightIh =>
    intro scope carries standard clean
    rw [isStandard, Bool.and_eq_true] at standard
    simp only [check, Checked.diagnostics_bind, List.append_eq_nil_iff] at clean
    exact typed_binary (leftIh scope carries standard.1 clean.1)
      (rightIh scope carries standard.2 clean.2.1) clean.2.2
  | call function arguments span ih =>
    intro scope carries standard clean
    rw [isStandard, Bool.and_eq_true] at standard
    exact typed_call resolved standard.1 (fun argument found => ih argument found scope carries
      (Argument.isStandard_of_areStandard standard.2 argument found)) clean
  | list items span ih =>
    intro scope carries standard
    cases standard
  | quantified collection quantifier condition span collectionIh conditionIh =>
    intro scope carries standard clean
    rw [isStandard, Bool.and_eq_true] at standard
    have outside : (collection.check schema true scope).diagnostics = [] :=
      (List.append_eq_nil_iff.1 clean).1
    have items := collectionIh scope carries standard.1 outside
    rcases Typing.records_of_clean items.notAny clean with ⟨model, isList, inside, fits⟩
    have test := conditionIh (.element model :: scope) (List.forall_mem_cons.2 ⟨rfl, carries⟩)
      standard.2 inside
    rw [isList] at items
    rw [ValueType.eq_boolean test.notAny fits] at test
    rw [typeIn_quantified]
    exact .quantified items test

theorem Expr.Typed.typeIn_eq (resolved : schema.IsResolved) {expr : Expr} {type : ValueType}
    (typed : expr.Typed schema scope type) : expr.typeIn schema scope = type := by
  induction typed with
  | literal => rfl
  | this found => rw [typeIn, check, Typing.this, found, Checked.value_pure]
  | field found readable =>
    rw [typeIn, check, Typing.reference, found]
    exact congrArg Checked.value (Typing.field_of_readable readable)
  | enumMember found => rw [typeIn, check, Typing.reference, found, Checked.value_pure]
  | access _ found readable ih =>
    rw [typeIn_access, ih, Typing.access_of_field? found, Typing.field_of_readable readable,
      Checked.value_pure]
  | not _ ih => rfl
  | negate _ numeric ih =>
    rw [typeIn, check, Checked.value_bind, ← typeIn, ih]
    simp [Typing.unary, ValueType.isNumericLike_scalar numeric]
  | logical isLogical =>
    rw [typeIn, check, Checked.value_bind, Checked.value_bind, Typing.binary, if_pos isLogical]
    rfl
  | @arithmetic _ op _ _ _ _ _ _ isArithmetic _ _ numeric otherNumeric gives leftIh rightIh =>
    rw [typeIn, check, Checked.value_bind, Checked.value_bind, ← typeIn, ← typeIn, leftIh, rightIh]
    -- No operator is both logical and arithmetic.
    have notLogical : ¬ op.isLogical = true := by cases op <;> cases isArithmetic <;> decide
    rw [Typing.binary, if_neg notLogical, if_pos isArithmetic,
      ValueType.isNumericLike_scalar numeric, ValueType.isNumericLike_scalar otherNumeric, gives]
    rfl
  | @comparison _ op _ _ _ _ _ _ isComparison => cases op <;> cases isComparison <;> rfl
  | auth isAuth known => rw [typeIn, check_auth _ _ _ _ _ isAuth, Typing.principal, known]; rfl
  | future isFuture known =>
    rw [typeIn, check_future _ _ _ _ _ isFuture, Typing.updated, Checked.value_bind, known]
    rfl
  | call notAuth notFuture gives =>
    rw [typeIn, check_call _ _ _ _ _ notAuth notFuture (resolved.function? gives)]
    simp only [Checked.value_bind, Checked.value_pure, gives.result]
    rfl
  | quantified => exact typeIn_quantified

end

end Schemata
