import Schemata.Proofs.Typing.Standard

/-!
# Standard expressions are lowered

The check of a standard expression looks for everything that lowering needs, save the fields that
identify the records of a model and the size of a number. So nothing else stops lowering.
-/

set_option autoImplicit false

namespace Schemata

/-- The error is about something that the check of an expression does not look for. -/
def LowerError.IsUnchecked : LowerError → Prop
  | .noIdentity _ | .invalidNumber _ => True
  | _ => False

namespace Lower

variable {lowering : LowerContext} {schema : Schema} {left right : Operand}

theorem access_of_isPath {object : Operand} (path : object.isPath) (name : String) :
    ∃ operand, access object name = .ok operand ∧ operand.isPath := by
  cases object with
  | field | principal | future => exact ⟨_, rfl, rfl⟩
  | _ => cases path

theorem failsOnly_comparePaths (leftPath : left.isPath) (rightPath : right.isPath)
    (fields : List Field) :
    FailsOnly LowerError.IsUnchecked (compareMembers left right fields) := by
  induction fields with
  | nil => exact .ok _
  | cons field rest ih =>
    rcases access_of_isPath leftPath field.name.name with ⟨first, firstRead, _⟩
    rcases access_of_isPath rightPath field.name.name with ⟨second, secondRead, _⟩
    have compared :
        compareMember left right field.name.name = .ok (.comparison .eq first second) := by
      rw [compareMember, firstRead, secondRead]
      rfl
    rw [compareMembers, compared]
    exact ih.bind fun others _ => .ok _

theorem failsOnly_compareRecords {op : Comparison} {model : Model} (leftPath : left.isPath)
    (rightPath : right.isPath) :
    FailsOnly LowerError.IsUnchecked (compareRecords schema op model left right) := by
  unfold compareRecords
  split
  · exact .ofError trivial
  · exact (failsOnly_comparePaths leftPath rightPath _).bind fun comparisons _ => .ok _

theorem notNull_of_comparedModel? {scope : Scope} {op : Comparison} {first second : Expr}
    {model : Model} (compared : comparedModel? schema scope op first second = some model) :
    first.isNull = false ∧ second.isNull = false := by
  unfold comparedModel? at compared
  split at compared
  next holds =>
    simp only [Bool.and_eq_true, Bool.not_eq_true'] at holds
    exact ⟨holds.1.2, holds.2⟩
  next => cases compared

end Lower

namespace Expr.Typed

variable {lowering : LowerContext} {scope : Scope} {expr : Expr} {type : ValueType}

theorem isPath {operand : Operand} {model : Model}
    (typed : expr.Typed lowering.schema scope type) (isModel : type.kind = .model model)
    (lowered : expr.lowerWith lowering scope = .ok operand) : operand.isPath := by
  cases typed with
  | @literal _ value => cases value <;> cases isModel
  | this found =>
    rw [lowerWith, Lower.this, found] at lowered
    cases lowered
    rfl
  | field found =>
    rw [lowerWith, Lower.reference, found] at lowered
    cases lowered
    rfl
  | access =>
    cases lowers_of_lowerWith lowered with
    | access _ found =>
      rcases Lower.access_of_isPath (Lower.isPath_of_access found) _ with ⟨_, read, path⟩
      cases read.symm.trans found
      exact path
  | auth isAuth =>
    rw [lowerWith_auth _ _ _ _ isAuth] at lowered
    cases lowered
    rfl
  | future isFuture =>
    rw [lowerWith_future _ _ _ _ isFuture] at lowered
    cases lowered
    rfl
  | _ => cases isModel

theorem failsOnly_compare (resolved : lowering.schema.IsResolved) {op : Comparison}
    {left right : Expr} {first second : Operand} {other : ValueType}
    (head : left.Typed lowering.schema scope type) (tail : right.Typed lowering.schema scope other)
    (fits : op = .eq ∨ op = .ne → type.comparable other = true)
    (leftLowered : left.lowerWith lowering scope = .ok first)
    (rightLowered : right.lowerWith lowering scope = .ok second) :
    FailsOnly LowerError.IsUnchecked (Lower.compare lowering.schema op
      (Lower.comparedModel? lowering.schema scope op left right) first second) := by
  unfold Lower.compare
  split
  next model compared =>
    have notNull := Lower.notNull_of_comparedModel? compared
    have fits := fits (Lower.isEquality_of_comparedModel? compared)
    -- Both sides are of known types, so that both are records as soon as one is.
    have leftType := head.typeIn_eq resolved
    have rightType := tail.typeIn_eq resolved
    have models := Lower.models_of_comparedModel? compared (leftType ▸ head.isKnown notNull.1)
      (rightType ▸ tail.isKnown notNull.2) (by rwa [leftType, rightType])
    rw [leftType, rightType] at models
    rcases models with ⟨⟨_, leftModel, _⟩, _, rightModel, _⟩
    exact Lower.failsOnly_compareRecords
      (head.isPath (ValueType.model?_eq_some leftModel).1 leftLowered)
      (tail.isPath (ValueType.model?_eq_some rightModel).1 rightLowered)
  next => exact .ok _

theorem failsOnly_lowerWith (resolved : lowering.schema.IsResolved)
    (typed : expr.Typed lowering.schema scope type) :
    FailsOnly LowerError.IsUnchecked (expr.lowerWith lowering scope) := by
  induction typed with
  | literal =>
    rw [lowerWith]
    exact (Lower.failsOnly_literal (fun _ => trivial) _).map
  | this found =>
    rw [lowerWith, Lower.this, found]
    exact .ok _
  | field found | enumMember found =>
    rw [lowerWith, Lower.reference, found]
    exact .ok _
  | access inner found readable ih =>
    refine ih.bind fun object lowered => ?_
    rcases Lower.access_of_isPath (inner.isPath rfl lowered) _ with ⟨operand, read, _⟩
    rw [read]
    exact .ok _
  | not _ ih | negate _ _ ih => exact ih.bind fun _ _ => .ok _
  | @logical _ op _ _ _ isLogical _ _ leftIh rightIh =>
    refine failsOnly_binary leftIh rightIh fun comparison isComparison => ?_
    cases op <;> cases isLogical <;> cases isComparison
  | @arithmetic _ op _ _ _ _ _ _ isArithmetic _ _ _ _ _ leftIh rightIh =>
    refine failsOnly_binary leftIh rightIh fun comparison isComparison => ?_
    cases op <;> cases isArithmetic <;> cases isComparison
  | @comparison _ op _ _ _ _ _ _ isComparison head tail fits leftIh rightIh =>
    refine failsOnly_binary leftIh rightIh fun comparison same first second => ?_
    refine failsOnly_compare resolved head tail fun isEquality => fits ?_
    rcases BinaryOp.eq_or_ne_of_comparison? same isEquality with rfl | rfl <;> rfl
  | auth isAuth =>
    rw [lowerWith_auth _ _ _ _ isAuth]
    exact .ok _
  | future isFuture =>
    rw [lowerWith_future _ _ _ _ isFuture]
    exact .ok _
  | call notAuth notFuture gives _ ih =>
    rw [lowerWith_call _ _ _ _ notAuth notFuture]
    refine (Argument.failsOnly_lowerAllWith ih).bind fun operands _ => ?_
    rw [Lower.call, resolved.inlinable? gives]
    exact .ok _
  | @quantified scope collection _ _ _ model items _ itemsIh testIh =>
    have element : Lower.elementModel lowering.schema scope collection = .ok model := by
      rw [Lower.elementModel, items.typeIn_eq resolved]
    rw [lowerWith, element]
    exact itemsIh.bind fun _ _ => testIh.bind fun _ _ => .ok _

end Expr.Typed

/--
A standard expression that the check finds nothing wrong with is lowered, unless it compares records
that nothing identifies, or states a number that does not read as a finite double.
-/
theorem Schema.lower_of_clean {document : Document} {options : ValidationOptions} {name : String}
    {record : Model} {expr : Expr} (valid : (document.validate options).isValid = true)
    (known : (Schema.ofDocument document).symbols.model? name = some record)
    (standard : expr.isStandard = true)
    (clean : (expr.check (.ofDocument document) true [.record record]).diagnostics = [])
    (isBoolean : (expr.typeIn (.ofDocument document) [.record record]).isBooleanLike = true) :
    (∃ predicate, (Schema.ofDocument document).lower name expr = .ok predicate) ∨
      (∃ model, (Schema.ofDocument document).lower name expr = .error (.noIdentity model)) ∨
      ∃ text, (Schema.ofDocument document).lower name expr = .error (.invalidNumber text) := by
  have resolved := isResolved_of_isValid valid
  have typed := expr.typed_of_clean resolved [.record record] (List.forall_mem_singleton.2 rfl)
    standard clean
  have progress :
      FailsOnly LowerError.IsUnchecked ((Schema.ofDocument document).lower name expr) := by
    have nothing : (expr.check (.ofDocument document) true [.record record]).diagnostics ++
        reportIf (!(expr.check (.ofDocument document) true [.record record]).value.isBooleanLike)
          (.error expr.span (.typing (.notBoolean
            (expr.check (.ofDocument document) true [.record record]).value.describe))) = [] := by
      rw [clean, ← Expr.typeIn, isBoolean]
      rfl
    have operands : FailsOnly LowerError.IsUnchecked
        (expr.lowerWith (.outside (.ofDocument document)) [.record record]) :=
      typed.failsOnly_lowerWith resolved
    simp only [lower, known, nothing]
    exact operands.bind fun _ _ => .ok _
  cases result : (Schema.ofDocument document).lower name expr with
  | ok predicate => exact .inl ⟨predicate, rfl⟩
  | error error =>
    cases error with
    | noIdentity model => exact .inr (.inl ⟨model, rfl⟩)
    | invalidNumber text => exact .inr (.inr ⟨text, rfl⟩)
    | _ => exact (progress _ result).elim

namespace Blog

open Library

/-- `posts![owner == auth() && published] || id * 2 > 9` -/
def ownsAll : Expr :=
  .binary .or
    (.quantified (reference "posts") .all
      (.binary .and
        (.binary .eq (reference "owner") (.call (ident "auth") [] Span.zero) Span.zero)
        (reference "published") Span.zero) Span.zero)
    (.binary .gt
      (.binary .mul (reference "id") (.literal (.number "2") Span.zero) Span.zero)
      (.literal (.number "9") Span.zero) Span.zero) Span.zero

end Blog

theorem Blog.lower_ownsAll :
    (document.validate .standard).isValid = true ∧ ownsAll.isStandard = true ∧
      (ownsAll.check schema true [.record user]).diagnostics = [] ∧
      ((∃ predicate, schema.lower "User" ownsAll = .ok predicate) ∨
        (∃ model, schema.lower "User" ownsAll = .error (.noIdentity model)) ∨
        ∃ text, schema.lower "User" ownsAll = .error (.invalidNumber text)) := by
  have valid : (document.validate .standard).isValid = true := by decide +kernel
  have known : schema.symbols.model? "User" = some user := rfl
  have standard : ownsAll.isStandard = true := by decide +kernel
  exact ⟨valid, standard, rfl, Schema.lower_of_clean valid known standard rfl rfl⟩

end Schemata
