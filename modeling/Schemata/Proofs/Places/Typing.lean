import Schemata.Proofs.Places.Schema
import Schemata.Typing.Check

set_option autoImplicit false

namespace Schemata

def ValueKind.erase : ValueKind → ValueKind
  | .enum decl => .enum decl.erase
  | .model decl => .model decl.erase
  | other => other

def ValueType.erase (type : ValueType) : ValueType := { type with kind := type.kind.erase }

namespace ValueType

variable (type : ValueType)

@[simp] theorem kind_erase : type.erase.kind = type.kind.erase := rfl

@[simp] theorem isList_erase : type.erase.isList = type.isList := rfl

@[simp] theorem isAny_erase : type.erase.isAny = type.isAny := by
  rcases type with ⟨kind, isList⟩
  cases kind <;> rfl

@[simp] theorem isNull_erase : type.erase.isNull = type.isNull := by
  rcases type with ⟨kind, isList⟩
  cases kind <;> rfl

@[simp] theorem scalar?_erase : type.erase.scalar? = type.scalar? := by
  rcases type with ⟨kind, isList⟩
  cases kind <;> rfl

@[simp] theorem model?_erase : type.erase.model? = type.model?.map Model.erase := by
  rcases type with ⟨kind, isList⟩
  cases kind with
  | model decl => cases isList <;> rfl
  | _ => rfl

@[simp] theorem isBooleanLike_erase : type.erase.isBooleanLike = type.isBooleanLike := by
  simp [isBooleanLike]

@[simp] theorem isNumericLike_erase : type.erase.isNumericLike = type.isNumericLike := by
  simp [isNumericLike]

@[simp] theorem isDateTimeLike_erase : type.erase.isDateTimeLike = type.isDateTimeLike := by
  simp [isDateTimeLike]

@[simp] theorem describe_erase : type.erase.describe = type.describe := by
  rcases type with ⟨kind, isList⟩
  cases kind <;> rfl

theorem ofResolved_erase (resolved : ResolvedType) (isList : Bool) :
    ofResolved resolved.erase isList = (ofResolved resolved isList).erase := by
  cases resolved with
  | builtin kind => cases kind <;> rfl
  | _ => rfl

variable (left right : ValueType)

@[simp] theorem assignable_erase (literal : Bool) :
    assignable literal left.erase right.erase = assignable literal left right := by
  have kinds : left.kind.erase.assignable literal right.kind.erase =
      left.kind.assignable literal right.kind := by
    cases left.kind <;> cases right.kind <;> rfl
  simp [assignable, kinds]

@[simp] theorem comparable_erase : left.erase.comparable right.erase = left.comparable right := by
  have kinds : left.kind.erase.comparable right.kind.erase = left.kind.comparable right.kind := by
    cases left.kind <;> cases right.kind <;> rfl
  simp [comparable, kinds]

end ValueType

def Frame.erase : Frame → Frame
  | .record model => .record model.erase
  | .element model => .element model.erase
  | .function params => .function (params.map FunctionParam.erase)

@[simp] theorem Frame.model?_erase (frame : Frame) :
    frame.erase.model? = frame.model?.map Model.erase := by
  cases frame <;> rfl

def Binding.erase : Binding → Binding
  | .param frame index declared => .param frame index declared.erase
  | .field frame valueScope model found => .field frame valueScope model.erase found.erase
  | .enumMember decl found => .enumMember decl.erase found.erase

namespace Scope

def erase (scope : Scope) : Scope := scope.map Frame.erase

@[simp] theorem erase_cons (frame : Frame) (scope : Scope) :
    Scope.erase (frame :: scope) = frame.erase :: Scope.erase scope := rfl

@[simp] theorem length_erase (scope : Scope) : (Scope.erase scope).length = scope.length :=
  List.length_map _

@[simp] theorem valueDepth_erase (scope : Scope) :
    valueDepth (Scope.erase scope) = valueDepth scope := by
  induction scope with
  | nil => rfl
  | cons frame outer ih => simp [valueDepth, ih]

@[simp] theorem this?_erase (scope : Scope) :
    this? (Scope.erase scope) = (this? scope).map (Prod.map id (Prod.map id Model.erase)) := by
  induction scope with
  | nil => rfl
  | cons frame outer ih =>
    simp only [erase_cons, this?, Frame.model?_erase, length_erase, valueDepth_erase, ih]
    cases frame.model? <;> rfl

@[simp] theorem record?_erase (scope : Scope) :
    record? (Scope.erase scope) = (record? scope).map Model.erase := by
  induction scope with
  | nil => rfl
  | cons frame outer ih =>
    simp only [erase_cons, record?, ih]
    cases record? outer with
    | some model => rfl
    | none => cases frame <;> rfl

variable (schema : Schema) (name : String)

@[simp] theorem lookupIn?_erase (outer : Scope) (frame : Frame) :
    lookupIn? schema.erase name (Scope.erase outer) frame.erase =
      (lookupIn? schema name outer frame).map Binding.erase := by
  cases frame with
  | function params =>
    simp [lookupIn?, Frame.erase, List.findIdx?_map, Option.map_bind, Option.bind_map,
      Function.comp_def, Binding.erase]
  | record model | element model =>
    simp [lookupIn?, Frame.erase, Function.comp_def, Binding.erase]

@[simp] theorem lookup?_erase (scope : Scope) :
    lookup? schema.erase name (Scope.erase scope) =
      (lookup? schema name scope).map Binding.erase := by
  induction scope with
  | nil =>
    simp [lookup?, Scope.erase, Function.comp_def, Prod.map, Binding.erase]
  | cons frame outer ih => simp [lookup?, ih, Option.map_or]

end Scope

namespace Typing

variable (schema : Schema) (scope : Scope) (span : Span)

@[simp] theorem erase_reportUnless (condition : Bool) (issue : TypeIssue) :
    (reportUnless condition span issue).erase id = reportUnless condition Span.zero issue := by
  cases condition <;> rfl

@[simp] theorem typeOfRef_erase (type : TypeRef) :
    typeOfRef schema.erase type.erase = (typeOfRef schema type).erase := by
  simp [typeOfRef, ValueType.ofResolved_erase]

@[simp] theorem field_erase (found : Field) :
    field schema.erase found.erase Span.zero = (field schema found span).erase ValueType.erase := by
  simp only [field, Schema.typeOf_erase]
  cases schema.typeOf found with
  | builtin kind => cases kind <;> rfl
  | _ => rfl

@[simp] theorem erase_literal (value : Literal) : (literal value).erase = literal value := by
  cases value with
  | number text => simp only [literal]; split <;> rfl
  | _ => rfl

theorem this_erase :
    this (Scope.erase scope) Span.zero = (this scope span).erase ValueType.erase := by
  unfold this
  rw [Scope.this?_erase]
  cases scope.this? <;> rfl

theorem reference_erase (name : Ident) :
    reference schema.erase (Scope.erase scope) name.erase =
      (reference schema scope name).erase ValueType.erase := by
  unfold reference
  rw [Ident.name_erase, Scope.lookup?_erase]
  cases scope.lookup? schema name.name with
  | none => rfl
  | some binding =>
    cases binding with
    | param frame index param => simp [Binding.erase]
    | field frame valueScope model found => exact field_erase schema name.span found
    | enumMember decl enumMember => rfl

theorem access_erase (object : ValueType) (name : Ident) :
    access schema.erase object.erase name.erase =
      (access schema object name).erase ValueType.erase := by
  rcases object with ⟨kind, isList⟩
  cases kind with
  | model model =>
    cases isList with
    | true => rfl
    | false =>
      simp only [access, ValueType.erase, ValueKind.erase, Ident.name_erase, Schema.field?_erase]
      cases schema.field? model name.name with
      | none => rfl
      | some visible => exact field_erase schema name.span visible.field
  | _ => rfl

theorem unary_erase (op : UnaryOp) (operand : ValueType) :
    unary op operand.erase Span.zero = (unary op operand span).erase ValueType.erase := by
  cases op with
  | not => exact Checked.erase_bind id (by simp) fun _ => rfl
  | negate =>
    simp only [unary, ValueType.isNumericLike_erase]
    cases operand.isNumericLike <;> rfl

@[simp] theorem arithmetic_erase (left right : ValueType) :
    arithmetic left.erase right.erase = (arithmetic left right).erase := by
  rcases left with ⟨left, isList⟩
  rcases right with ⟨right, isList'⟩
  cases left <;> cases right <;> try rfl
  simp only [arithmetic, ValueType.erase, ValueKind.erase]
  split
  · rfl
  · split <;> rfl

theorem binary_erase (op : BinaryOp) (left right : ValueType) :
    binary op left.erase right.erase Span.zero =
      (binary op left right span).erase ValueType.erase := by
  simp only [binary, ValueType.isBooleanLike_erase, ValueType.isNumericLike_erase,
    ValueType.isDateTimeLike_erase, ValueType.comparable_erase, ValueType.describe_erase,
    arithmetic_erase]
  cases op.isLogical with
  | true => exact Checked.erase_bind id (by simp) fun _ => rfl
  | false =>
    cases op.isArithmetic with
    | true => cases left.isNumericLike && right.isNumericLike <;> rfl
    | false =>
      cases op.isRelational with
      | true => exact Checked.erase_bind id (by simp) fun _ => rfl
      | false => exact Checked.erase_bind id (by simp) fun _ => rfl

theorem list_erase (types : List ValueType) :
    list (types.map ValueType.erase) = (list types).erase := by
  have join_erase (first second : ValueType) :
      join first.erase second.erase = (join first second).erase := by
    simp only [join, ValueType.assignable_erase]
    split
    · rfl
    · split <;> rfl
  have items (rest : List ValueType) : ∀ first : ValueType,
      (rest.map ValueType.erase).foldl join first.erase = (rest.foldl join first).erase := by
    induction rest with
    | nil => exact fun first => rfl
    | cons next rest ih => exact fun first => by simp [join_erase, ih]
  cases types with
  | nil => rfl
  | cons first rest =>
    simp only [List.map_cons, list, items, ValueType.isList_erase]
    split <;> rfl

theorem principal_erase :
    principal schema.erase Span.zero = (principal schema span).erase ValueType.erase := by
  unfold principal
  rw [Schema.principal?_erase]
  cases schema.principal? <;> rfl

theorem updated_erase (future : Bool) :
    updated future (Scope.erase scope) Span.zero =
      (updated future scope span).erase ValueType.erase := by
  refine Checked.erase_bind id (by simp) fun _ => ?_
  rw [Scope.record?_erase]
  cases scope.record? <;> rfl

theorem argumentCount_erase (decl : FunctionDecl) (function : Ident) (given : Nat) :
    argumentCount decl.erase function.erase given =
      (argumentCount decl function given).erase id := by
  simp only [argumentCount, FunctionDecl.params_erase, List.length_map, List.countP_map,
    Function.comp_def, FunctionParam.type_erase, TypeRef.isOptional_erase]
  split <;> simp

theorem argument_erase (function : String) (params : List FunctionParam) (value : Expr)
    (type : ValueType) :
    argument schema.erase function (params.map FunctionParam.erase) value.erase type.erase =
      (argument schema function params value type).erase id := by
  cases params with
  | nil => rfl
  | cons param rest => simp [argument]

end Typing

section

variable (schema : Schema) (future : Bool)

def Expr.ChecksErased (expr : Expr) : Prop :=
  ∀ scope : Scope, expr.erase.check schema.erase future (Scope.erase scope) =
    (expr.check schema future scope).erase ValueType.erase

variable {schema future}

theorem Expr.checkAll_erase (scope : Scope) {items : List Expr}
    (checks : ∀ item ∈ items, item.ChecksErased schema future) :
    checkAll schema.erase future (Scope.erase scope) (items.map erase) =
      (checkAll schema future scope items).erase (List.map ValueType.erase) := by
  induction items with
  | nil => rfl
  | cons item rest ih =>
    rcases List.forall_mem_cons.1 checks with ⟨first, others⟩
    exact Checked.erase_bind ValueType.erase (first scope) fun type =>
      Checked.erase_bind (List.map ValueType.erase) (ih others) fun types => rfl

theorem Argument.checkAll_erase (scope : Scope) (function : String) (known : Bool)
    {arguments : List Argument}
    (checks : ∀ argument ∈ arguments, argument.value.ChecksErased schema future) :
    ∀ params : List FunctionParam,
      checkAll schema.erase future (Scope.erase scope) function known
          (params.map FunctionParam.erase) (arguments.map erase) =
        (checkAll schema future scope function known params arguments).erase id := by
  induction arguments with
  | nil => exact fun params => rfl
  | cons argument rest ih =>
    intro params
    rcases List.forall_mem_cons.1 checks with ⟨first, others⟩
    have behind := ih others params.tail
    rw [List.map_tail] at behind
    cases argument with
    | positional value =>
      exact Checked.erase_bind ValueType.erase (first scope) fun type =>
        Checked.erase_bind id (Typing.argument_erase schema function params value type)
          fun _ => behind
    | named name value =>
      refine Checked.erase_bind id ?_ fun _ => ?_
      · simp
      · exact Checked.erase_bind ValueType.erase (first scope) fun type =>
          Checked.erase_bind id (Typing.argument_erase schema function params value type)
            fun _ => behind

theorem Expr.checksErased_call {function : Ident} {arguments : List Argument} {span : Span}
    (checks : ∀ argument ∈ arguments, argument.value.ChecksErased schema future) :
    (Expr.call function arguments span).ChecksErased schema future := by
  intro scope
  have name : function.erase.name = function.name := rfl
  rw [erase_call]
  by_cases isAuth : function.name = "auth"
  next =>
    rw [check_auth _ _ _ _ _ isAuth, check_auth _ _ _ _ _ (name.trans isAuth)]
    exact Typing.principal_erase schema function.span
  next =>
    by_cases isFuture : function.name = "future"
    next =>
      rw [check_future _ _ _ _ _ isFuture, check_future _ _ _ _ _ (name.trans isFuture)]
      exact Typing.updated_erase scope function.span future
    next =>
      cases known : schema.symbols.function? function.name with
      | none =>
        have unknown : schema.erase.symbols.function? function.name = none := by simp [known]
        rw [check_unknown _ _ _ _ _ isAuth isFuture known,
          check_unknown _ _ _ _ _ (name ▸ isAuth) (name ▸ isFuture) (name ▸ unknown)]
        refine Checked.erase_bind id rfl fun _ => ?_
        exact Checked.erase_bind id (Argument.checkAll_erase scope _ _ checks []) fun _ => rfl
      | some decl =>
        have found : schema.erase.symbols.function? function.name = some decl.erase := by
          simp [known]
        rw [check_call _ _ _ _ _ isAuth isFuture known,
          check_call _ _ _ _ _ (name ▸ isAuth) (name ▸ isFuture) (name ▸ found), List.length_map]
        refine Checked.erase_bind id (Typing.argumentCount_erase decl function _) fun _ => ?_
        refine Checked.erase_bind id (Argument.checkAll_erase scope _ _ checks decl.params) fun _ => ?_
        exact congrArg pure (Typing.typeOfRef_erase schema decl.result)

theorem Expr.checksErased (expr : Expr) : expr.ChecksErased schema future := by
  induction expr using Expr.inductionOn with
  | literal value span => exact fun scope => congrArg pure (Typing.erase_literal value).symm
  | this span => exact fun scope => Typing.this_erase scope span
  | reference name span => exact fun scope => Typing.reference_erase schema scope name
  | access object name span ih =>
    exact fun scope => Checked.erase_bind ValueType.erase (ih scope) fun type =>
      Typing.access_erase schema type name
  | unary op operand span ih =>
    exact fun scope => Checked.erase_bind ValueType.erase (ih scope) fun type =>
      Typing.unary_erase span op type
  | binary op left right span first second =>
    exact fun scope => Checked.erase_bind ValueType.erase (first scope) fun type =>
      Checked.erase_bind ValueType.erase (second scope) fun type' =>
        Typing.binary_erase span op type type'
  | call function arguments span ih => exact checksErased_call ih
  | list items span ih =>
    intro scope
    rw [erase_list]
    exact Checked.erase_bind (List.map ValueType.erase) (checkAll_erase scope ih) fun types =>
      congrArg pure (Typing.list_erase types)
  | quantified collection quantifier condition span ih body =>
    intro scope
    refine Checked.erase_bind ValueType.erase (ih scope) fun type => ?_
    rcases type with ⟨kind, isList⟩
    cases kind with
    | any => rfl
    | model model =>
      cases isList with
      | true =>
        refine Checked.erase_bind ValueType.erase (body (.element model :: scope)) fun result => ?_
        exact Checked.erase_bind id (by simp) fun _ => rfl
      | false => exact Checked.erase_bind id (by simp) fun _ => rfl
    | _ => exact Checked.erase_bind id (by simp) fun _ => rfl

end

variable (schema : Schema)

@[simp] theorem Expr.check_erase (expr : Expr) (future : Bool) (scope : Scope) :
    expr.erase.check schema.erase future (Scope.erase scope) =
      (expr.check schema future scope).erase ValueType.erase :=
  expr.checksErased scope

@[simp] theorem Expr.typeIn_erase (expr : Expr) (scope : Scope) :
    expr.erase.typeIn schema.erase (Scope.erase scope) = (expr.typeIn schema scope).erase :=
  congrArg Checked.value (check_erase schema expr true scope)

theorem FunctionDecl.check_erase (decl : FunctionDecl) :
    decl.erase.check schema.erase = (decl.check schema).map Diagnostic.erase := by
  unfold check
  cases body : decl.body with
  | none => simp [body]
  | some expr =>
    have inside := Expr.check_erase schema expr false [.function decl.params]
    simp only [Scope.erase, List.map_cons, List.map_nil, Frame.erase] at inside
    simp [body, inside]

end Schemata
