import Schemata.Proofs.Order.Reorder
import Schemata.Proofs.Syntax.ExprInduction
import Schemata.Typing.Check

set_option autoImplicit false

namespace Schemata

namespace Checked

variable {α β γ δ : Type}

def convert (value : α → β) (checked : Checked α) : Checked β :=
  ⟨value checked.value, checked.diagnostics⟩

theorem convert_bind {first : Checked α} {first' : Checked β} {next : α → Checked γ}
    {next' : β → Checked δ} {value : γ → δ} (inner : α → β) (same : first' = first.convert inner)
    (behind : ∀ result, next' (inner result) = (next result).convert value) :
    (first' >>= next') = (first >>= next).convert value := by
  subst same
  have second := behind first.value
  exact congrArg
    (fun second : Checked δ => (⟨second.value, first.diagnostics ++ second.diagnostics⟩ : Checked δ))
    second

@[simp] theorem convert_id (checked : Checked α) : checked.convert id = checked := rfl

end Checked

variable {order : Model → List Ident}

def ValueKind.reorder (order : Model → List Ident) : ValueKind → ValueKind
  | .model decl => .model (decl.reorder order)
  | other => other

namespace ValueType

def reorder (order : Model → List Ident) (type : ValueType) : ValueType :=
  { type with kind := type.kind.reorder order }

theorem reorder_bases (type : ValueType) : type.reorder Model.bases = type := by
  rcases type with ⟨kind, isList⟩
  cases kind <;> rfl

variable (type left right : ValueType)

@[simp] theorem isAny_reorder : (type.reorder order).isAny = type.isAny := by
  rcases type with ⟨kind, isList⟩
  cases kind <;> rfl

@[simp] theorem isNull_reorder : (type.reorder order).isNull = type.isNull := by
  rcases type with ⟨kind, isList⟩
  cases kind <;> rfl

@[simp] theorem isList_reorder : (type.reorder order).isList = type.isList := rfl

@[simp] theorem scalar?_reorder : (type.reorder order).scalar? = type.scalar? := by
  rcases type with ⟨kind, isList⟩
  cases kind <;> rfl

@[simp] theorem isBooleanLike_reorder : (type.reorder order).isBooleanLike = type.isBooleanLike := by
  simp [isBooleanLike]

@[simp] theorem isNumericLike_reorder : (type.reorder order).isNumericLike = type.isNumericLike := by
  simp [isNumericLike]

@[simp] theorem isDateTimeLike_reorder :
    (type.reorder order).isDateTimeLike = type.isDateTimeLike := by
  simp [isDateTimeLike]

@[simp] theorem describe_reorder : (type.reorder order).describe = type.describe := by
  rcases type with ⟨kind, isList⟩
  cases kind <;> rfl

theorem ofResolved_reorder (resolved : ResolvedType) (isList : Bool) :
    ofResolved (resolved.reorder order) isList = (ofResolved resolved isList).reorder order := by
  cases resolved with
  | builtin kind => cases kind <;> rfl
  | _ => rfl

@[simp] theorem assignable_reorder (literal : Bool) :
    assignable literal (left.reorder order) (right.reorder order) =
      assignable literal left right := by
  have kinds : (left.kind.reorder order).assignable literal (right.kind.reorder order) =
      left.kind.assignable literal right.kind := by
    cases left.kind <;> cases right.kind <;> rfl
  unfold assignable
  rw [isAny_reorder, isNull_reorder, isAny_reorder]
  exact congrArg (fun kinds => if right.isAny || right.isNull then true
    else if left.isAny then !left.isList || right.isList
    else left.isList == right.isList && kinds) kinds

@[simp] theorem comparable_reorder :
    (left.reorder order).comparable (right.reorder order) = left.comparable right := by
  have kinds : (left.kind.reorder order).comparable (right.kind.reorder order) =
      left.kind.comparable right.kind := by
    cases left.kind <;> cases right.kind <;> rfl
  unfold comparable
  rw [isAny_reorder, isNull_reorder, isAny_reorder, isNull_reorder]
  exact congrArg (fun kinds => left.isAny || left.isNull || right.isAny || right.isNull ||
    (left.isList == right.isList && kinds)) kinds

end ValueType

def Frame.reorder (order : Model → List Ident) : Frame → Frame
  | .record model => .record (model.reorder order)
  | .element model => .element (model.reorder order)
  | .function params => .function params

def Binding.reorder (order : Model → List Ident) : Binding → Binding
  | .field frame valueScope model found => .field frame valueScope (model.reorder order) found
  | other => other

namespace Scope

def reorder (order : Model → List Ident) (scope : Scope) : Scope := scope.map (Frame.reorder order)

theorem model?_reorder (frame : Frame) :
    (frame.reorder order).model? = frame.model?.map (Model.reorder order) := by
  cases frame <;> rfl

@[simp] theorem length_reorder (scope : Scope) : (reorder order scope).length = scope.length :=
  List.length_map _

@[simp] theorem valueDepth_reorder (scope : Scope) :
    valueDepth (reorder order scope) = valueDepth scope := by
  induction scope with
  | nil => rfl
  | cons frame outer ih =>
    change valueDepth (reorder order outer) + _ = _
    rw [ih, model?_reorder, Option.isSome_map, valueDepth]

theorem this?_reorder (scope : Scope) :
    this? (reorder order scope) =
      (this? scope).map (Prod.map id (Prod.map id (Model.reorder order))) := by
  induction scope with
  | nil => rfl
  | cons frame outer ih =>
    have outside := ih
    unfold reorder at outside ⊢
    simp only [List.map_cons, this?, model?_reorder, outside, List.length_map]
    have depth : valueDepth (outer.map (Frame.reorder order)) = valueDepth outer :=
      valueDepth_reorder outer
    rw [depth]
    cases frame.model? <;> rfl

theorem record?_reorder (scope : Scope) :
    record? (reorder order scope) = (record? scope).map (Model.reorder order) := by
  induction scope with
  | nil => rfl
  | cons frame outer ih =>
    unfold reorder at ih ⊢
    simp only [List.map_cons, record?, ih]
    cases record? outer with
    | some model => rfl
    | none => cases frame <;> rfl

variable {schema other : Schema} (reordered : Schema.Reordered order schema other)
include reordered

theorem lookupIn?_reorder (name : String) (outer : Scope) (frame : Frame) :
    lookupIn? other name (reorder order outer) (frame.reorder order) =
      (lookupIn? schema name outer frame).map (Binding.reorder order) := by
  have field (model : Model) (place : Nat) (valueScope : Nat) :
      (other.field? (model.reorder order) name).map (fun visible =>
          Binding.field place valueScope (model.reorder order) visible.field) =
        ((schema.field? model name).map fun visible =>
          Binding.field place valueScope model visible.field).map (Binding.reorder order) := by
    have same := congrArg
      (Option.map (Binding.field place valueScope (model.reorder order))) (reordered.field? model name)
    rw [Option.map_map, Option.map_map] at same
    rw [Option.map_map]
    exact same
  cases frame with
  | function params =>
    simp only [lookupIn?, Frame.reorder, length_reorder]
    cases params.findIdx? (·.name.name == name) with
    | none => rfl
    | some index =>
      simp only [Option.bind_eq_bind, Option.bind_some]
      cases params[index]? <;> rfl
  | record model | element model =>
    simp only [lookupIn?, Frame.reorder, length_reorder, valueDepth_reorder]
    exact field model _ _

theorem lookup?_reorder (name : String) (scope : Scope) :
    lookup? other name (reorder order scope) =
      (lookup? schema name scope).map (Binding.reorder order) := by
  induction scope with
  | nil =>
    change (other.symbols.enumMember? name).map _ = _
    rw [reordered.enumMember?, lookup?, Option.map_map]
    rfl
  | cons frame outer ih =>
    change (lookupIn? other name (reorder order outer) (frame.reorder order)).or
      (lookup? other name (reorder order outer)) = _
    rw [lookupIn?_reorder reordered, ih, lookup?, Option.map_or]

end Scope

namespace Typing

variable {schema other : Schema} (reordered : Schema.Reordered order schema other)

section
include reordered

theorem typeOfRef_reorder (type : TypeRef) :
    typeOfRef other type = (typeOfRef schema type).reorder order := by
  rw [typeOfRef, reordered.resolve, ValueType.ofResolved_reorder, typeOfRef]

theorem field_reorder (found : Field) (span : Span) :
    field other found span = (field schema found span).convert (ValueType.reorder order) := by
  unfold field
  rw [reordered.typeOf]
  cases schema.typeOf found with
  | builtin kind => cases kind <;> rfl
  | _ => rfl

theorem reference_reorder (scope : Scope) (name : Ident) :
    reference other (Scope.reorder order scope) name =
      (reference schema scope name).convert (ValueType.reorder order) := by
  unfold reference
  rw [Scope.lookup?_reorder reordered]
  cases scope.lookup? schema name.name with
  | none => rfl
  | some binding =>
    cases binding with
    | param frame index param => exact congrArg pure (typeOfRef_reorder reordered param.type)
    | field frame valueScope model found => exact field_reorder reordered found name.span
    | enumMember decl enumMember => rfl

theorem access_reorder (object : ValueType) (name : Ident) :
    access other (object.reorder order) name =
      (access schema object name).convert (ValueType.reorder order) := by
  rcases object with ⟨kind, isList⟩
  cases kind with
  | model model =>
    cases isList with
    | true => rfl
    | false =>
      simp only [access, ValueType.reorder, ValueKind.reorder, Bool.false_eq_true, if_false]
      rcases reordered.field?_cases model name.name with
        ⟨missing, missingToo⟩ | ⟨there, here, known, knownToo, same⟩
      · rw [missing, missingToo]
        rfl
      · simp only [known, knownToo, same]
        exact field_reorder reordered here.field name.span
  | _ => rfl

theorem principal_reorder (span : Span) :
    principal other span = (principal schema span).convert (ValueType.reorder order) := by
  unfold principal
  rw [reordered.principal?]
  cases schema.principal? <;> rfl

theorem argument_reorder (function : String) (params : List FunctionParam) (value : Expr)
    (type : ValueType) :
    argument other function params value (type.reorder order) =
      (argument schema function params value type).convert id := by
  cases params with
  | nil => rfl
  | cons param rest =>
    simp only [argument, typeOfRef_reorder reordered, ValueType.assignable_reorder,
      ValueType.describe_reorder, Checked.convert_id]

end

theorem this_reorder (scope : Scope) (span : Span) :
    this (Scope.reorder order scope) span =
      (this scope span).convert (ValueType.reorder order) := by
  unfold this
  rw [Scope.this?_reorder]
  cases scope.this? <;> rfl

theorem updated_reorder (future : Bool) (scope : Scope) (span : Span) :
    updated future (Scope.reorder order scope) span =
      (updated future scope span).convert (ValueType.reorder order) := by
  refine Checked.convert_bind id rfl fun _ => ?_
  rw [Scope.record?_reorder]
  cases scope.record? <;> rfl

theorem literal_reorder (value : Literal) : (literal value).reorder order = literal value := by
  cases value with
  | number text => unfold literal; split <;> rfl
  | _ => rfl

theorem unary_reorder (op : UnaryOp) (operand : ValueType) (span : Span) :
    unary op (operand.reorder order) span =
      (unary op operand span).convert (ValueType.reorder order) := by
  cases op with
  | not =>
    unfold unary
    rw [ValueType.isBooleanLike_reorder]
    rfl
  | negate =>
    simp only [unary, ValueType.isNumericLike_reorder]
    cases operand.isNumericLike <;> rfl

theorem arithmetic_reorder (left right : ValueType) :
    arithmetic (left.reorder order) (right.reorder order) =
      (arithmetic left right).reorder order := by
  rcases left with ⟨left, isList⟩
  rcases right with ⟨right, isList'⟩
  cases left <;> cases right <;> try rfl
  simp only [arithmetic, ValueType.reorder, ValueKind.reorder]
  split
  · rfl
  · split <;> rfl

theorem binary_reorder (op : BinaryOp) (left right : ValueType) (span : Span) :
    binary op (left.reorder order) (right.reorder order) span =
      (binary op left right span).convert (ValueType.reorder order) := by
  simp only [binary, ValueType.isBooleanLike_reorder, ValueType.isNumericLike_reorder,
    ValueType.isDateTimeLike_reorder, ValueType.comparable_reorder, ValueType.describe_reorder,
    arithmetic_reorder]
  cases op.isLogical with
  | true => rfl
  | false =>
    cases op.isArithmetic with
    | true => cases left.isNumericLike && right.isNumericLike <;> rfl
    | false => cases op.isRelational <;> rfl

theorem list_reorder (types : List ValueType) :
    list (types.map (ValueType.reorder order)) = (list types).reorder order := by
  have join_reorder (first second : ValueType) :
      join (first.reorder order) (second.reorder order) = (join first second).reorder order := by
    simp only [join, ValueType.assignable_reorder]
    split
    · rfl
    · split <;> rfl
  have items (rest : List ValueType) : ∀ first : ValueType,
      (rest.map (ValueType.reorder order)).foldl join (first.reorder order) =
        (rest.foldl join first).reorder order := by
    induction rest with
    | nil => exact fun first => rfl
    | cons next rest ih =>
      intro first
      rw [List.map_cons, List.foldl_cons, join_reorder, ih, List.foldl_cons]
  cases types with
  | nil => rfl
  | cons first rest =>
    simp only [List.map_cons, list, items, ValueType.isList_reorder]
    split <;> rfl

end Typing

section

variable (order) (schema other : Schema) (future : Bool)

def Expr.ChecksReordered (expr : Expr) : Prop :=
  ∀ scope : Scope, expr.check other future (Scope.reorder order scope) =
    (expr.check schema future scope).convert (ValueType.reorder order)

variable {order schema other future} (reordered : Schema.Reordered order schema other)

theorem Expr.checkAll_reorder (scope : Scope) {items : List Expr}
    (checks : ∀ item ∈ items, item.ChecksReordered order schema other future) :
    checkAll other future (Scope.reorder order scope) items =
      (checkAll schema future scope items).convert (List.map (ValueType.reorder order)) := by
  induction items with
  | nil => rfl
  | cons item rest ih =>
    rcases List.forall_mem_cons.1 checks with ⟨first, others⟩
    exact Checked.convert_bind (ValueType.reorder order) (first scope) fun type =>
      Checked.convert_bind (List.map (ValueType.reorder order)) (ih others) fun types => rfl

include reordered

theorem Argument.checkAll_reorder (scope : Scope) (function : String) (known : Bool)
    {arguments : List Argument}
    (checks : ∀ argument ∈ arguments,
      argument.value.ChecksReordered order schema other future) :
    ∀ params : List FunctionParam,
      checkAll other future (Scope.reorder order scope) function known params arguments =
        (checkAll schema future scope function known params arguments).convert id := by
  induction arguments with
  | nil => exact fun params => rfl
  | cons argument rest ih =>
    intro params
    rcases List.forall_mem_cons.1 checks with ⟨first, others⟩
    have behind := ih others params.tail
    have here (value : Expr) (type : ValueType) :=
      Typing.argument_reorder reordered function params value type
    cases argument with
    | positional value =>
      exact Checked.convert_bind (ValueType.reorder order) (first scope) fun type =>
        Checked.convert_bind id (here value type) fun _ => behind
    | named name value =>
      refine Checked.convert_bind id rfl fun _ => ?_
      exact Checked.convert_bind (ValueType.reorder order) (first scope) fun type =>
        Checked.convert_bind id (here value type) fun _ => behind

theorem Expr.checksReordered_call {function : Ident} {arguments : List Argument} {span : Span}
    (checks : ∀ argument ∈ arguments,
      argument.value.ChecksReordered order schema other future) :
    (Expr.call function arguments span).ChecksReordered order schema other future := by
  intro scope
  by_cases isAuth : function.name = "auth"
  next =>
    rw [check_auth _ _ _ _ _ isAuth, check_auth _ _ _ _ _ isAuth]
    exact Typing.principal_reorder reordered function.span
  next =>
    by_cases isFuture : function.name = "future"
    next =>
      rw [check_future _ _ _ _ _ isFuture, check_future _ _ _ _ _ isFuture]
      exact Typing.updated_reorder future scope function.span
    next =>
      cases known : schema.symbols.function? function.name with
      | none =>
        have unknown := (reordered.function? function.name).trans known
        rw [check_unknown _ _ _ _ _ isAuth isFuture known,
          check_unknown _ _ _ _ _ isAuth isFuture unknown]
        refine Checked.convert_bind id rfl fun _ => ?_
        exact Checked.convert_bind id
          (Argument.checkAll_reorder reordered scope _ _ checks []) fun _ => rfl
      | some decl =>
        have found := (reordered.function? function.name).trans known
        rw [check_call _ _ _ _ _ isAuth isFuture known, check_call _ _ _ _ _ isAuth isFuture found]
        refine Checked.convert_bind id rfl fun _ => ?_
        refine Checked.convert_bind id
          (Argument.checkAll_reorder reordered scope _ _ checks decl.params) fun _ => ?_
        exact congrArg pure (Typing.typeOfRef_reorder reordered decl.result)

theorem Expr.checksReordered (expr : Expr) : expr.ChecksReordered order schema other future := by
  induction expr using Expr.inductionOn with
  | literal value span => exact fun scope => congrArg pure (Typing.literal_reorder value).symm
  | this span => exact fun scope => Typing.this_reorder scope span
  | reference name span => exact fun scope => Typing.reference_reorder reordered scope name
  | access object name span ih =>
    exact fun scope => Checked.convert_bind (ValueType.reorder order) (ih scope) fun type =>
      Typing.access_reorder reordered type name
  | unary op operand span ih =>
    exact fun scope => Checked.convert_bind (ValueType.reorder order) (ih scope) fun type =>
      Typing.unary_reorder op type span
  | binary op left right span first second =>
    exact fun scope => Checked.convert_bind (ValueType.reorder order) (first scope) fun type =>
      Checked.convert_bind (ValueType.reorder order) (second scope) fun type' =>
        Typing.binary_reorder op type type' span
  | call function arguments span ih => exact checksReordered_call reordered ih
  | list items span ih =>
    intro scope
    exact Checked.convert_bind (List.map (ValueType.reorder order)) (checkAll_reorder scope ih)
      fun types => congrArg pure (Typing.list_reorder types)
  | quantified collection quantifier condition span ih body =>
    intro scope
    refine Checked.convert_bind (ValueType.reorder order) (ih scope) fun type => ?_
    rcases type with ⟨kind, isList⟩
    cases kind with
    | model model =>
      cases isList with
      | true =>
        refine Checked.convert_bind (ValueType.reorder order)
          (body (.element model :: scope)) fun result => ?_
        rw [ValueType.isBooleanLike_reorder]
        rfl
      | false => rfl
    | _ => rfl

theorem Expr.check_reorder (expr : Expr) (future : Bool) (scope : Scope) :
    expr.check other future (Scope.reorder order scope) =
      (expr.check schema future scope).convert (ValueType.reorder order) :=
  expr.checksReordered reordered scope

theorem FunctionDecl.check_reorder (decl : FunctionDecl) :
    decl.check other = decl.check schema := by
  unfold check
  cases decl.body with
  | none => rfl
  | some body =>
    have inside := body.check_reorder reordered false [.function decl.params]
    have scope : Scope.reorder order [.function decl.params] = [.function decl.params] := rfl
    rw [scope] at inside
    simp only [inside, Checked.convert, Typing.typeOfRef_reorder reordered,
      ValueType.assignable_reorder, ValueType.describe_reorder]

end

end Schemata
