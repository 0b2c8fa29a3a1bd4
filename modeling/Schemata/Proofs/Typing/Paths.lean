import Schemata.Predicate.Lower
import Schemata.Proofs.Lowering.Inlining
import Schemata.Proofs.Validation.Clean

set_option autoImplicit false

namespace Schemata

structure ValueType.IsKnown (type : ValueType) : Prop where
  notAny : type.isAny = false
  notNull : type.isNull = false

theorem ValueType.isKnown_model (model : Model) : (ValueType.model model).IsKnown := ⟨rfl, rfl⟩

theorem ValueType.isKnown_ofResolved {type : ResolvedType} (fieldType : type.IsFieldType)
    (isList : Bool) : (ValueType.ofResolved type isList).IsKnown := by
  cases type with
  | builtin | unresolved => exact fieldType.elim
  | _ => exact ⟨rfl, rfl⟩

theorem ValueType.model?_eq_some {type : ValueType} {model : Model}
    (isModel : type.model? = some model) : type.kind = .model model ∧ type.isList = false := by
  unfold model? at isModel
  split at isModel
  next other kind => cases single : type.isList <;> simp_all
  next => cases isModel

theorem ValueType.model?_of_comparable {left right : ValueType} {model : Model}
    (fits : left.comparable right = true) (leftKnown : left.IsKnown) (rightKnown : right.IsKnown)
    (isModel : left.model? = some model) :
    ∃ other, right.model? = some other ∧ other.name.name = model.name.name := by
  obtain ⟨kind, single⟩ := model?_eq_some isModel
  simp only [comparable, leftKnown.notAny, leftKnown.notNull, rightKnown.notAny,
    rightKnown.notNull, kind, single, Bool.false_or, Bool.and_eq_true, beq_iff_eq] at fits
  cases other : right.kind with
  | model decl =>
    have names : (model.name == decl.name) = true := by
      simpa [ValueKind.comparable, other] using fits.2
    have same : model.name.name = decl.name.name := by simpa [BEq.beq] using names
    exact ⟨decl, by simp [model?, other, ← fits.1], same.symm⟩
  | _ => simp [ValueKind.comparable, other] at fits

theorem ValueKind.comparable_comm (left right : ValueKind) :
    left.comparable right = right.comparable left := by
  have idents (first second : Ident) : (first == second) = (second == first) :=
    BEq.comm (α := String)
  cases left <;> cases right <;> simp only [comparable, Bool.and_comm, idents, BEq.comm]

theorem ValueType.comparable_comm (left right : ValueType) :
    left.comparable right = right.comparable left := by
  simp only [comparable, left.kind.comparable_comm right.kind, BEq.comm (a := left.isList)]
  cases left.isAny <;> cases left.isNull <;> cases right.isAny <;> cases right.isNull <;> rfl

def Scope.CarriesValues (scope : Scope) : Prop := ∀ frame ∈ scope, frame.model?.isSome = true

section

variable {schema : Schema} {scope : Scope} {name : String}

theorem Scope.CarriesValues.lookup?_ne_param (carries : scope.CarriesValues) {frame index : Nat}
    {param : FunctionParam} : scope.lookup? schema name ≠ some (.param frame index param) := by
  intro found
  induction scope with
  | nil => simp [lookup?] at found
  | cons layer outer ih =>
    -- A name means a parameter only where a frame of parameters is open.
    rcases lookup?_cons_cases found with here | outside
    · obtain ⟨params, _, _, rfl, _⟩ | ⟨_, _, _, wrong⟩ := lookupIn?_cases here
      · simpa [Frame.model?] using carries _ List.mem_cons_self
      · cases wrong
    · exact ih (fun other member => carries other (List.mem_cons_of_mem _ member)) outside

theorem Scope.visible_of_lookup? {frame place : Nat} {model : Model} {field : Field}
    (found : scope.lookup? schema name = some (.field frame place model field)) :
    ∃ visible ∈ schema.fields model, visible.field = field := by
  induction scope with
  | nil => simp [lookup?] at found
  | cons layer outer ih =>
    rcases lookup?_cons_cases found with here | outside
    · cases layer with
      | function params =>
        obtain ⟨_, _, _, _, wrong⟩ | ⟨_, _, wrong, _⟩ := lookupIn?_cases here
        · cases wrong
        · cases wrong
      | record own | element own =>
        simp only [lookupIn?, Option.map_eq_some_iff] at here
        obtain ⟨visible, known, same⟩ := here
        cases same
        exact ⟨visible, List.mem_of_find?_eq_some known, rfl⟩
    · exact ih outside

end

def Schema.HasKnownFields (schema : Schema) : Prop :=
  ∀ model, ∀ visible ∈ schema.fields model, (schema.typeOf visible.field).IsFieldType

section

variable {schema : Schema} {lowering : LowerContext} {scope : Scope} {operand : Operand}

theorem Typing.isKnown_field {field : Field} {span : Span}
    (fieldType : (schema.typeOf field).IsFieldType)
    (clean : (Typing.field schema field span).diagnostics = []) :
    (Typing.field schema field span).value.IsKnown := by
  unfold Typing.field at clean ⊢
  split at clean
  · simp [reject] at clean
  · exact ValueType.isKnown_ofResolved fieldType _

def Operand.isPath (operand : Operand) : Prop := (operand.member? "").isSome

theorem Operand.isPath_of_member? {name : String} {inner : Operand}
    (read : operand.member? name = some inner) : operand.isPath ∧ inner.isPath := by
  cases operand with
  | field | principal | future =>
    cases read
    exact ⟨rfl, rfl⟩
  | _ => simp [member?] at read

theorem Lower.isPath_of_access {object : Operand} {name : String}
    (lowered : Lower.access object name = .ok operand) : object.isPath := by
  unfold Lower.access at lowered
  split at lowered
  next read => exact (Operand.isPath_of_member? read).1
  next => cases lowered

theorem Schema.isFieldType_of_field? (fields : schema.HasKnownFields) {model : Model}
    {name : String} {visible : VisibleField} (found : schema.field? model name = some visible) :
    (schema.typeOf visible.field).IsFieldType :=
  fields model visible (List.mem_of_find?_eq_some found)

theorem Typing.isKnown_reference (fields : schema.HasKnownFields) (carries : scope.CarriesValues)
    {name : Ident} (clean : (Typing.reference schema scope name).diagnostics = []) :
    (Typing.reference schema scope name).value.IsKnown := by
  unfold reference at clean ⊢
  split at clean
  next found => exact absurd found carries.lookup?_ne_param
  next found =>
    obtain ⟨visible, known, rfl⟩ := Scope.visible_of_lookup? found
    exact isKnown_field (fields _ visible known) clean
  next => exact ⟨rfl, rfl⟩
  next => cases clean

theorem Typing.isKnown_access (fields : schema.HasKnownFields) {object : ValueType} {name : Ident}
    (known : object.IsKnown) (clean : (Typing.access schema object name).diagnostics = []) :
    (Typing.access schema object name).value.IsKnown := by
  unfold access at clean ⊢
  split at clean
  next any =>
    have wrong := known.notAny
    simp [ValueType.isAny, any] at wrong
  next model isModel =>
    split at clean
    · simp [reject] at clean
    next single =>
      simp only [single, Bool.false_eq_true, if_false]
      split at clean
      next visible found => exact isKnown_field (Schema.isFieldType_of_field? fields found) clean
      next => cases clean
  next => simp [reject] at clean

theorem Expr.isKnown_of_isPath (fields : schema.HasKnownFields) (carries : scope.CarriesValues)
    (same : lowering.schema = schema) (expr : Expr) :
    ∀ operand, (∀ name ∈ expr.calls, Lower.inlinable? schema name = none) →
      (expr.check schema true scope).diagnostics = [] →
      expr.lowerWith lowering scope = .ok operand → operand.isPath →
      (expr.typeIn schema scope).IsKnown := by
  -- Operators, lists and calls of functions lower to no path, which settles their cases.
  induction expr using Expr.inductionOn with
  | literal value span =>
    intro operand _ _ lowered path
    cases lowers_of_lowerWith lowered
    cases path
  | this span =>
    intro operand _ clean lowered path
    simp only [typeIn, check, Typing.this] at clean ⊢
    split at clean
    next => exact ValueType.isKnown_model _
    next => simp [Typing.reject] at clean
  | reference name span =>
    intro operand _ clean lowered path
    simp only [typeIn, check] at clean ⊢
    exact Typing.isKnown_reference fields carries clean
  | access object member span ih =>
    intro operand noBodies clean lowered path
    simp only [check, Checked.diagnostics_bind, List.append_eq_nil_iff] at clean
    cases lowers_of_lowerWith lowered with
    | access objectLowered read =>
      have known := ih _ noBodies clean.1 objectLowered (Lower.isPath_of_access read)
      rw [typeIn, check, Checked.value_bind]
      exact Typing.isKnown_access fields known clean.2
  | unary op inner span ih =>
    intro operand noBodies clean lowered path
    cases lowers_of_lowerWith lowered <;> cases path
  | binary op left right span leftIh rightIh =>
    intro operand noBodies clean lowered path
    cases lowers_of_lowerWith lowered <;> cases path
  | call function arguments span ih =>
    intro operand noBodies clean lowered path
    cases lowers_of_lowerWith lowered with
    | auth isAuth =>
      rw [check] at clean
      rw [typeIn, check]
      simp only [isAuth] at clean ⊢
      unfold Typing.principal at clean ⊢
      cases principal : schema.principal? with
      | none => simp [principal, Typing.reject] at clean
      | some model => exact ValueType.isKnown_model model
    | future isFuture =>
      rw [check] at clean
      rw [typeIn, check]
      simp only [isFuture] at clean ⊢
      unfold Typing.updated at clean ⊢
      simp only [Checked.diagnostics_bind, List.append_eq_nil_iff] at clean
      rw [Checked.value_bind]
      cases record : scope.record? with
      | none => simp [record, Typing.reject] at clean
      | some model => exact ValueType.isKnown_model model
    | call _ _ _ called =>
      simp only [Lower.call, same, noBodies function.name List.mem_cons_self] at called
      cases called
      cases path
  | list items span ih =>
    intro operand noBodies clean lowered path
    cases lowers_of_lowerWith lowered
    cases path
  | quantified collection quantifier condition span collectionIh conditionIh =>
    intro operand noBodies clean lowered path
    cases lowers_of_lowerWith lowered
    cases path

end

end Schemata
