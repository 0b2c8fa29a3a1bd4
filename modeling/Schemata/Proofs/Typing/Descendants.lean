import Schemata.Proofs.Schema.SharedFields
import Schemata.Proofs.Typing.Issues

/-!
# Types for the records of a descendant

A model has all fields of a model that it extends, and may have more. An expression about records of
the base therefore has the same type for records of the descendant, unless it uses a record as a
whole, which is of another type there, or names a member of an enum that a field of the descendant
hides.
-/

set_option autoImplicit false

namespace Schemata

/-- The scope inside collection predicates over some elements, innermost first, and a record. -/
def Scope.inside (elements : List Model) (record : Model) : Scope :=
  elements.map .element ++ [.record record]

def Expr.isRecord (scope : Scope) : Expr → Bool
  | .this _ =>
      match scope with
      | [.record _] => true
      | _ => false
  | .call function _ _ => function.name == "future"
  | _ => false

def ValueType.comparesWithAll (type : ValueType) : Bool := type.isAny || type.isNull

mutual

/--
Decide whether an expression does not depend on which model its record is of. No field of `model`
hides the member of an enum that a name means. The whole record stands only in front of a member, in
a comparison with itself or with what compares with everything, and as an argument of any type.
-/
def Expr.isInheritable (schema : Schema) (model : Model) (scope : Scope) : Expr → Bool
  | .literal _ _ => true
  | .this span => !Expr.isRecord scope (.this span)
  | .reference name _ =>
      match scope.lookup? schema name.name with
      | some (.enumMember _ _) => (schema.field? model name.name).isNone
      | _ => true
  | .access object _ _ => object.isRecord scope || object.isInheritable schema model scope
  | .unary _ operand _ => operand.isInheritable schema model scope
  | .binary _ left right _ =>
      match left.isRecord scope, right.isRecord scope with
      | true, true => true
      | true, false =>
          (right.typeIn schema scope).comparesWithAll && right.isInheritable schema model scope
      | false, true =>
          (left.typeIn schema scope).comparesWithAll && left.isInheritable schema model scope
      | false, false =>
          left.isInheritable schema model scope && right.isInheritable schema model scope
  | .call function arguments _ =>
      if function.name = "auth" then true
      else if function.name = "future" then false
      else
        match schema.symbols.function? function.name with
        | some decl => Argument.areInheritable schema model scope decl.params arguments
        | none => true
  | .list items _ => Expr.areInheritable schema model scope items
  | .quantified collection _ condition _ =>
      collection.isInheritable schema model scope &&
        match (collection.typeIn schema scope).kind with
        | .model element => condition.isInheritable schema model (.element element :: scope)
        | _ => true

def Expr.areInheritable (schema : Schema) (model : Model) (scope : Scope) : List Expr → Bool
  | [] => true
  | item :: rest =>
      item.isInheritable schema model scope && Expr.areInheritable schema model scope rest

def Argument.areInheritable (schema : Schema) (model : Model) (scope : Scope) :
    List FunctionParam → List Argument → Bool
  | _, [] => true
  | params, .positional value :: rest | params, .named _ value :: rest =>
      (if value.isRecord scope then
        params.head?.all fun param => (Typing.typeOfRef schema param.type).isAny
      else value.isInheritable schema model scope) &&
        Argument.areInheritable schema model scope params.tail rest

end

section

variable {schema : Schema} {model base : Model} {elements : List Model} {future : Bool}

theorem Typing.reference_inside_cons (element record : Model) (name : Ident) :
    Typing.reference schema (.inside (element :: elements) record) name =
      match schema.field? element name.name with
      | some visible => field schema visible.field name.span
      | none => Typing.reference schema (.inside elements record) name := by
  simp only [reference, Scope.inside, List.map_cons, List.cons_append, Scope.lookup?,
    Scope.lookupIn?]
  cases schema.field? element name.name <;> rfl

theorem Typing.reference_inside_nil (record : Model) (name : Ident) :
    Typing.reference schema (.inside [] record) name =
      match schema.field? record name.name with
      | some visible => field schema visible.field name.span
      | none =>
          match schema.symbols.enumMember? name.name with
          | some (decl, _) => pure ⟨.enum decl, false⟩
          | none => ⟨.any, [.unresolved .value name]⟩ := by
  simp only [reference, Scope.inside, List.map_nil, List.nil_append, Scope.lookup?,
    Scope.lookupIn?]
  cases schema.field? record name.name with
  | some visible => rfl
  | none => cases schema.symbols.enumMember? name.name <;> rfl

theorem Expr.isInheritable_inside_cons {element record : Model} {name : Ident} {span : Span}
    (inheritable : (Expr.reference name span).isInheritable schema model
      (.inside (element :: elements) record) = true)
    (free : schema.field? element name.name = none) :
    (Expr.reference name span).isInheritable schema model (.inside elements record) = true := by
  simpa [isInheritable, Scope.inside, Scope.lookup?, Scope.lookupIn?, free] using inheritable

theorem Typing.reference_descendant (shares : schema.SharesFields base model) {name : Ident}
    {span : Span} :
    ∀ elements : List Model,
      (Expr.reference name span).isInheritable schema model (.inside elements base) = true →
      (reference schema (.inside elements base) name).diagnostics = [] →
        reference schema (.inside elements model) name =
          reference schema (.inside elements base) name := by
  intro elements
  induction elements with
  | nil =>
    intro inheritable clean
    rw [reference_inside_nil] at clean
    rw [reference_inside_nil, reference_inside_nil]
    cases here : schema.field? base name.name with
    | some visible =>
      obtain ⟨other, there, same⟩ := shares _ visible here
      simp only [there, same]
    | none =>
      -- The name means the member of an enum, which the descendant does not hide.
      cases found : schema.symbols.enumMember? name.name with
      | none => simp [here, found] at clean
      | some pair =>
        have free : schema.field? model name.name = none := by
          simpa [Expr.isInheritable, Scope.inside, Scope.lookup?, Scope.lookupIn?, here, found]
            using inheritable
        rw [free]
  | cons element rest ih =>
    intro inheritable clean
    rw [reference_inside_cons] at clean
    rw [reference_inside_cons, reference_inside_cons]
    cases here : schema.field? element name.name with
    | some visible => rfl
    | none =>
      rw [here] at clean
      exact ih (Expr.isInheritable_inside_cons inheritable here) clean

theorem Scope.record?_inside (elements : List Model) (record : Model) :
    (Scope.inside elements record).record? = some record := by
  induction elements with
  | nil => rfl
  | cons element rest ih =>
    rw [inside] at ih
    simp only [inside, List.map_cons, List.cons_append, record?, ih]

theorem Expr.check_isRecord {expr : Expr} (isRecord : expr.isRecord (.inside elements base) = true)
    (clean : (expr.check schema future (.inside elements base)).diagnostics = [])
    (record : Model) :
    expr.check schema future (.inside elements record) = pure (.model record) := by
  cases expr with
  | this span =>
    cases elements with
    | nil => rfl
    | cons element rest => cases rest <;> cases isRecord
  | call function arguments span =>
    have isFuture : function.name = "future" := by simpa [Expr.isRecord] using isRecord
    rw [check] at clean ⊢
    simp only [isFuture, Typing.updated, Scope.record?_inside] at clean ⊢
    cases future with
    | true => rfl
    | false => cases clean
  | _ => cases isRecord

theorem Typing.access_descendant (shares : schema.SharesFields base model) {name : Ident}
    (clean : (access schema (.model base) name).diagnostics = []) :
    access schema (.model model) name = access schema (.model base) name := by
  simp only [access, ValueType.model, Bool.false_eq_true, if_false] at clean ⊢
  cases here : schema.field? base name.name with
  | some visible =>
    obtain ⟨other, there, same⟩ := shares _ visible here
    simp only [there, same]
  | none => simp [here] at clean

/-- Values of these types can be compared, and take part in no other operation. -/
structure ValueType.OnlyCompare (left right : ValueType) : Prop where
  notBoolean : (left.isBooleanLike && right.isBooleanLike) = false
  notNumeric : (left.isNumericLike && right.isNumericLike) = false
  notDateTime : (left.isDateTimeLike && right.isDateTimeLike) = false
  comparable : left.comparable right = true

theorem ValueType.onlyCompare_models (record : Model) :
    OnlyCompare (.model record) (.model record) := by
  refine ⟨rfl, rfl, rfl, ?_⟩
  have same : (record.name == record.name) = true := beq_self_eq_true record.name.name
  simp [comparable, model, ValueKind.comparable, same]

theorem ValueType.onlyCompare_model_left (record : Model) {other : ValueType}
    (fits : other.comparesWithAll = true) : OnlyCompare (.model record) other := by
  refine ⟨rfl, rfl, rfl, ?_⟩
  rcases Bool.or_eq_true_iff.1 fits with any | null
  · simp [comparable, any]
  · simp [comparable, null]

theorem ValueType.onlyCompare_model_right (record : Model) {other : ValueType}
    (fits : other.comparesWithAll = true) : OnlyCompare other (.model record) := by
  refine ⟨Bool.and_false _, Bool.and_false _, Bool.and_false _, ?_⟩
  rcases Bool.or_eq_true_iff.1 fits with any | null
  · simp [comparable, any]
  · simp [comparable, null]

theorem Typing.binary_congr {op : BinaryOp} {span : Span} {left right left' right' : ValueType}
    (first : left.OnlyCompare right) (second : left'.OnlyCompare right') :
    binary op left right span = binary op left' right' span := by
  simp only [binary, first.notBoolean, first.notNumeric, first.notDateTime, first.comparable,
    second.notBoolean, second.notNumeric, second.notDateTime, second.comparable]
  rfl

theorem Expr.checkAll_congr {items : List Expr} {scope other : Scope}
    (each : ∀ item ∈ items, item.check schema future other = item.check schema future scope) :
    Expr.checkAll schema future other items = Expr.checkAll schema future scope items := by
  induction items with
  | nil => rfl
  | cons item rest ih =>
    obtain ⟨here, behind⟩ := List.forall_mem_cons.1 each
    rw [checkAll, checkAll, here, ih behind]

theorem Expr.isInheritable_of_mem {items : List Expr} {scope : Scope}
    (inheritable : Expr.areInheritable schema model scope items = true) :
    ∀ item ∈ items, item.isInheritable schema model scope = true := by
  induction items with
  | nil => exact nofun
  | cons item rest ih =>
    rw [areInheritable, Bool.and_eq_true] at inheritable
    exact List.forall_mem_cons.2 ⟨inheritable.1, ih inheritable.2⟩

theorem Typing.argument_model {function : String} {params : List FunctionParam} {value : Expr}
    (anyType : params.head?.all fun param => (typeOfRef schema param.type).isAny)
    (clean : (argument schema function params value (.model base)).diagnostics = []) :
    argument schema function params value (.model model) =
      argument schema function params value (.model base) := by
  cases params with
  | nil => rfl
  | cons param rest =>
    have any : (typeOfRef schema param.type).isAny = true := by simpa using anyType
    have fits (record : Model) :
        (typeOfRef schema param.type).assignable value.string?.isSome (.model record) =
          !(typeOfRef schema param.type).isList := by
      have whole : (ValueType.model record).isAny = false ∧ (ValueType.model record).isNull = false :=
        ⟨rfl, rfl⟩
      simp only [ValueType.assignable, whole, any]
      exact Bool.or_false _
    simp only [argument, fits, reportUnless, reportIf] at clean ⊢
    split at clean
    · cases clean
    next accepted => simp [accepted]

def Expr.KeepsType (schema : Schema) (future : Bool) (base model : Model) (elements : List Model)
    (expr : Expr) : Prop :=
  expr.isInheritable schema model (.inside elements base) = true →
    (expr.check schema future (.inside elements base)).diagnostics = [] →
      expr.check schema future (.inside elements model) =
        expr.check schema future (.inside elements base)

theorem Argument.check_descendant {function : String} {params : List FunctionParam} {value : Expr}
    (keeps : value.KeepsType schema future base model elements)
    (inheritable : (if value.isRecord (.inside elements base) then
        params.head?.all fun param => (Typing.typeOfRef schema param.type).isAny
      else value.isInheritable schema model (.inside elements base)) = true)
    (clean : (value.check schema future (.inside elements base) >>=
      Typing.argument schema function params value).diagnostics = []) :
    (value.check schema future (.inside elements model) >>=
        Typing.argument schema function params value) =
      value.check schema future (.inside elements base) >>=
        Typing.argument schema function params value := by
  rw [Checked.diagnostics_bind, List.append_eq_nil_iff] at clean
  split at inheritable
  next isRecord =>
    have record := Expr.check_isRecord isRecord clean.1
    rw [record base] at clean
    rw [record model, record base]
    exact Typing.argument_model inheritable clean.2
  next => rw [keeps inheritable clean.1]

theorem Argument.checkAll_descendant {function : String} {known : Bool} {arguments : List Argument}
    (each : ∀ argument ∈ arguments,
      argument.value.KeepsType schema future base model elements) :
    ∀ params : List FunctionParam,
      Argument.areInheritable schema model (.inside elements base) params arguments = true →
      (Argument.checkAll schema future (.inside elements base) function known params
        arguments).diagnostics = [] →
        Argument.checkAll schema future (.inside elements model) function known params arguments =
          Argument.checkAll schema future (.inside elements base) function known params
            arguments := by
  induction arguments with
  | nil => intro params _ _; rw [checkAll, checkAll]
  | cons argument rest ih =>
    obtain ⟨here, behind⟩ := List.forall_mem_cons.1 each
    intro params inheritable clean
    cases argument with
    | positional value =>
      rw [areInheritable, Bool.and_eq_true] at inheritable
      rw [checkAll, ← Checked.bind_assoc, Checked.diagnostics_bind, List.append_eq_nil_iff] at clean
      simp only [Argument.value] at here
      rw [checkAll, checkAll, ← Checked.bind_assoc, ← Checked.bind_assoc,
        check_descendant here inheritable.1 clean.1, ih behind _ inheritable.2 clean.2]
    | named name value =>
      rw [areInheritable, Bool.and_eq_true] at inheritable
      rw [checkAll, Checked.diagnostics_bind, List.append_eq_nil_iff, ← Checked.bind_assoc,
        Checked.diagnostics_bind, List.append_eq_nil_iff] at clean
      simp only [Argument.value] at here
      rw [checkAll, checkAll]
      refine Checked.bind_congr ?_
      rw [← Checked.bind_assoc, ← Checked.bind_assoc,
        check_descendant here inheritable.1 clean.2.1, ih behind _ inheritable.2 clean.2.2]

namespace Expr.KeepsType

variable {span : Span}

theorem access (shares : schema.SharesFields base model) {object : Expr} {member : Ident}
    (keeps : object.KeepsType schema future base model elements) :
    (Expr.access object member span).KeepsType schema future base model elements := by
  intro inheritable clean
  simp only [check, Checked.diagnostics_bind, List.append_eq_nil_iff] at clean
  rw [isInheritable, Bool.or_eq_true] at inheritable
  rw [check, check]
  rcases inheritable with isRecord | inheritable
  · have record := check_isRecord isRecord clean.1
    rw [record base] at clean
    rw [record model, record base]
    exact Typing.access_descendant shares clean.2
  · rw [keeps inheritable clean.1]

theorem binary {op : BinaryOp} {left right : Expr}
    (leftKeeps : left.KeepsType schema future base model elements)
    (rightKeeps : right.KeepsType schema future base model elements) :
    (Expr.binary op left right span).KeepsType schema future base model elements := by
  intro inheritable clean
  simp only [check, Checked.diagnostics_bind, List.append_eq_nil_iff] at clean
  rw [isInheritable] at inheritable
  rw [check, check]
  split at inheritable
  next isRecord isRecordToo =>
    have first := check_isRecord isRecord clean.1
    have second := check_isRecord isRecordToo clean.2.1
    rw [first model, first base, second model, second base]
    simp only [Checked.pure_bind]
    exact Typing.binary_congr (ValueType.onlyCompare_models _) (ValueType.onlyCompare_models _)
  next isRecord _ =>
    have first := check_isRecord isRecord clean.1
    rw [Bool.and_eq_true, ← right.value_check future] at inheritable
    rw [first model, first base, rightKeeps inheritable.2 clean.2.1]
    have compare (record : Model) := ValueType.onlyCompare_model_left record inheritable.1
    simp only [Checked.pure_bind]
    refine Checked.bind_congr ?_
    exact Typing.binary_congr (compare model) (compare base)
  next _ isRecord =>
    have second := check_isRecord isRecord clean.2.1
    rw [Bool.and_eq_true, ← left.value_check future] at inheritable
    rw [second model, second base, leftKeeps inheritable.2 clean.1]
    have compare (record : Model) := ValueType.onlyCompare_model_right record inheritable.1
    simp only [Checked.pure_bind]
    refine Checked.bind_congr ?_
    exact Typing.binary_congr (compare model) (compare base)
  next =>
    rw [Bool.and_eq_true] at inheritable
    rw [leftKeeps inheritable.1 clean.1, rightKeeps inheritable.2 clean.2.1]

theorem call {function : Ident} {arguments : List Argument}
    (each : ∀ argument ∈ arguments,
      argument.value.KeepsType schema future base model elements) :
    (Expr.call function arguments span).KeepsType schema future base model elements := by
  intro inheritable clean
  by_cases isAuth : function.name = "auth"
  · rw [check_auth _ _ _ _ _ isAuth, check_auth _ _ _ _ _ isAuth]
  by_cases isFuture : function.name = "future"
  · simp [isInheritable, isFuture] at inheritable
  rw [isInheritable, if_neg isAuth, if_neg isFuture] at inheritable
  cases known : schema.symbols.function? function.name with
  | none =>
    rw [check_unknown _ _ _ _ _ isAuth isFuture known] at clean
    simp [Checked.report] at clean
  | some decl =>
    rw [check_call _ _ _ _ _ isAuth isFuture known] at clean ⊢
    rw [check_call _ _ _ _ _ isAuth isFuture known]
    simp only [Checked.diagnostics_bind, List.append_eq_nil_iff] at clean
    simp only [known] at inheritable
    rw [Argument.checkAll_descendant each decl.params inheritable clean.2.1]

theorem list {items : List Expr}
    (each : ∀ item ∈ items, item.KeepsType schema future base model elements) :
    (Expr.list items span).KeepsType schema future base model elements := by
  intro inheritable clean
  have items := checkAll_congr fun item found =>
    each item found (isInheritable_of_mem inheritable item found)
      ((inherited_clean schema future).item found clean)
  rw [check, check, items]

theorem quantified {collection condition : Expr} {quantifier : Quantifier}
    (collectionKeeps : collection.KeepsType schema future base model elements)
    (conditionKeeps : ∀ element,
      condition.KeepsType schema future base model (element :: elements)) :
    (Expr.quantified collection quantifier condition span).KeepsType schema future base model
      elements := by
  intro inheritable clean
  rw [isInheritable, Bool.and_eq_true] at inheritable
  have outside := (inherited_clean schema future).collection clean
  rw [check, check, collectionKeeps inheritable.1 outside]
  refine Checked.bind_congr ?_
  split
  next => rfl
  next element kind =>
    rw [collection.value_check future] at kind
    split
    next isList =>
      -- The condition stands below one more element, which is of the same model in both scopes.
      have inside := (inherited_clean schema future).condition kind clean
      simp only [kind] at inheritable
      have same := conditionKeeps element inheritable.2 inside
      simp only [Scope.inside, List.map_cons, List.cons_append] at same ⊢
      rw [same]
    next => rfl
  next => rfl

end Expr.KeepsType

theorem Expr.check_descendant (shares : schema.SharesFields base model) (expr : Expr) :
    ∀ elements : List Model, expr.KeepsType schema future base model elements := by
  induction expr using Expr.inductionOn with
  | literal value span => exact fun _ _ _ => rfl
  | this span =>
    intro elements inheritable _
    cases elements with
    | nil => cases inheritable
    | cons element rest => rfl
  | reference name span =>
    exact fun elements inheritable clean =>
      Typing.reference_descendant shares elements inheritable clean
  | access object member span ih => exact fun elements => .access shares (ih elements)
  | unary op operand span ih =>
    intro elements inheritable clean
    rw [check, check, ih elements inheritable ((inherited_clean schema future).operand clean)]
  | binary op left right span leftIh rightIh =>
    exact fun elements => .binary (leftIh elements) (rightIh elements)
  | call function arguments span ih =>
    exact fun elements => .call fun argument found => ih argument found elements
  | list items span ih => exact fun elements => .list fun item found => ih item found elements
  | quantified collection quantifier condition span collectionIh conditionIh =>
    exact fun elements => .quantified (collectionIh elements) fun element =>
      conditionIh (element :: elements)

end

end Schemata
