import Schemata.Proofs.Lowering.Inlining
import Schemata.Proofs.Lowering.Invariant

set_option autoImplicit false

namespace Schemata

def Predicate.isNegatable : Predicate → Bool
  | .const _ | .not _ => false
  | .test _ | .and _ | .or _ | .comparison _ _ _ | .any _ _ => true

mutual

/-- Decide whether no negation stands in front of a negation or a constant, also inside operands. -/
def Predicate.isNormal : Predicate → Bool
  | .const _ => true
  | .test operand => operand.isNormal
  | .not predicate => predicate.isNegatable && predicate.isNormal
  | .and predicates | .or predicates => Predicate.allNormal predicates
  | .comparison _ left right => left.isNormal && right.isNormal
  | .any collection predicate => collection.isNormal && predicate.isNormal

def Operand.isNormal : Operand → Bool
  | .value _ | .field _ _ | .principal _ | .future _ => true
  | .arithmetic _ left right => left.isNormal && right.isNormal
  | .negate operand => operand.isNormal
  | .list operands | .call _ operands => Operand.allNormal operands
  | .predicate predicate => predicate.isNormal

def Predicate.allNormal : List Predicate → Bool
  | [] => true
  | first :: rest => first.isNormal && Predicate.allNormal rest

def Operand.allNormal : List Operand → Bool
  | [] => true
  | first :: rest => first.isNormal && Operand.allNormal rest

end

theorem Predicate.allNormal_iff {parts : List Predicate} :
    Predicate.allNormal parts = true ↔ ∀ part ∈ parts, part.isNormal = true := by
  induction parts with
  | nil => simp [Predicate.allNormal]
  | cons first rest ih => simp [Predicate.allNormal, ih]

theorem Operand.allNormal_iff {items : List Operand} :
    Operand.allNormal items = true ↔ ∀ item ∈ items, item.isNormal = true := by
  induction items with
  | nil => simp [Operand.allNormal]
  | cons first rest ih => simp [Operand.allNormal, ih]

namespace Predicate

theorem isNormal_negated {predicate : Predicate} (normal : predicate.isNormal = true) :
    predicate.negated.isNormal = true := by
  cases predicate with
  | const value => rfl
  | not inner =>
    rw [isNormal, Bool.and_eq_true] at normal
    exact normal.2
  | test | and | or | comparison | any =>
    rw [negated, isNormal, normal]
    · rfl
    all_goals simp

theorem negated_negated {predicate : Predicate} (normal : predicate.isNormal = true) :
    predicate.negated.negated = predicate := by
  cases predicate with
  | const value => rw [negated, negated, Bool.not_not]
  | not inner =>
    -- What stood behind the negation is neither a negation nor a constant.
    rw [isNormal, Bool.and_eq_true] at normal
    cases inner with
    | const | not => cases normal.1
    | test | and | or | comparison | any => rfl
  | test | and | or | comparison | any => rfl

theorem eval_negated (predicate : Predicate) (context : EvalContext) :
    predicate.negated.eval context = (predicate.eval context).map fun value => !value :=
  evalIn_negated context [context.record] predicate

end Predicate

theorem Lower.isNormal_invariant :
    Lower.OperandInvariant (fun _ predicate => predicate.isNormal = true)
      (fun _ operand => operand.isNormal = true) where
  const _ _ := rfl
  asPredicate {_ operand} normal := by cases operand <;> exact normal
  negated _ _ := Predicate.isNormal_negated
  and := Predicate.allNormal_iff.2
  comparison left right := by rw [Predicate.isNormal, left, right]; rfl
  any collection predicate := by rw [Predicate.isNormal, collection, predicate]; rfl
  member {_ object _ _} _ read := by cases object <;> cases read <;> rfl
  or := Predicate.allNormal_iff.2
  value _ _ := rfl
  field _ _ := rfl
  principal _ := rfl
  arithmetic _ left right := by rw [Operand.isNormal, left, right]; rfl
  negate normal := normal
  list := Operand.allNormal_iff.2
  predicate normal := normal
  mono normal _ := normal

structure LowerContext.IsNormal (lowering : LowerContext) : Prop where
  arguments : ∀ operand ∈ lowering.arguments, operand.isNormal = true
  inlines : ∀ decl operands depth operand, (∀ given ∈ operands, given.isNormal = true) →
    lowering.inline decl operands depth = .ok operand → operand.isNormal = true

section

variable {lowering : LowerContext}

theorem LowerContext.IsNormal.call (normal : lowering.IsNormal) {scope : Scope} {name : String}
    {operands : List Operand} {operand : Operand}
    (given : ∀ part ∈ operands, part.isNormal = true)
    (called : Lower.call lowering scope name operands = .ok operand) : operand.isNormal = true := by
  unfold Lower.call at called
  split at called
  next => exact normal.inlines _ operands _ operand given called
  next =>
    cases called
    exact Operand.allNormal_iff.2 given

theorem Expr.isNormal_lowerWith (normal : lowering.IsNormal) (expr : Expr) (scope : Scope)
    (operand : Operand) (lowered : expr.lowerWith lowering scope = .ok operand) :
    operand.isNormal = true := by
  refine Lower.isNormal_invariant.of_lowerWith inherited_true normal.arguments ?_ ?_ expr scope
    operand trivial lowered
  · intros
    rfl
  · intro _ _ _ _ parts operand _ _ _ _ given called
    exact normal.call given called

end

section

variable {schema : Schema}

theorem LowerContext.isNormal_inside (fuel : Nat) :
    ∀ (inlined : List String) (base : Nat) (outer : List Operand),
      (∀ operand ∈ outer, operand.isNormal = true) →
        (LowerContext.inside schema fuel inlined base outer).IsNormal := by
  induction fuel with
  | zero =>
    intro inlined base outer given
    refine ⟨given, fun decl operands depth operand _ lowered => ?_⟩
    obtain ⟨_, rest, _, wrong, _⟩ := Lower.inlineInside_eq_ok.1 lowered
    cases wrong
  | succ fuel ih =>
    intro inlined base outer given
    refine ⟨given, fun decl operands depth operand normal lowered => ?_⟩
    obtain ⟨_, rest, body, same, _, lowered⟩ := Lower.inlineInside_eq_ok.1 lowered
    cases same
    exact body.isNormal_lowerWith (ih _ _ operands normal) _ operand lowered

theorem Expr.isNormal_lower {scope : Scope} {expr : Expr} {predicate : Predicate}
    (lowered : expr.lower schema scope = .ok predicate) : predicate.isNormal = true := by
  obtain ⟨operand, operandLowered, lowered⟩ := Except.bind_eq_ok.1 lowered
  cases lowered
  have normal : (LowerContext.outside schema).IsNormal :=
    LowerContext.isNormal_inside _ [] 0 [] nofun
  exact Lower.isNormal_invariant.of_expr 0 expr
    (expr.isNormal_lowerWith normal scope operand operandLowered)

end

/--
What an expression is lowered to is in the form. Negating gives the opposite answer to any
predicate, or the same error, and negating twice gives a predicate in the form back.
-/
theorem Predicate.negations_are_exact :
    (∀ (schema : Schema) (scope : Scope) (expr : Expr) (predicate : Predicate),
      expr.lower schema scope = .ok predicate → predicate.isNormal = true) ∧
    (∀ predicate : Predicate, predicate.isNormal = true → predicate.negated.negated = predicate) ∧
    ∀ (predicate : Predicate) (context : EvalContext),
      predicate.negated.eval context = (predicate.eval context).map fun value => !value :=
  ⟨fun _ _ _ _ => Expr.isNormal_lower, fun _ => negated_negated, eval_negated⟩

/-- In `!everyPost(posts, false)` the negation and the one of the body that is inlined cancel. -/
theorem Blog.negations_are_exact_everyPost :
    ∃ predicate,
      (Expr.unary .not (call (.literal (.boolean false) Span.zero)) Span.zero).lower schema
        [.record user] = .ok predicate ∧
      predicate = .any (.field 0 ["posts"]) (.not (.test (.value (.bool false)))) ∧
      predicate.isNormal = true ∧ predicate.negated.negated = predicate ∧
      predicate.negated.eval context = (predicate.eval context).map fun value => !value := by
  obtain ⟨form, twice, opposite⟩ := Predicate.negations_are_exact
  have lowered : (Expr.unary .not (call (.literal (.boolean false) Span.zero)) Span.zero).lower
      schema [.record user] =
        .ok (.any (.field 0 ["posts"]) (.not (.test (.value (.bool false))))) := rfl
  have normal := form schema _ _ _ lowered
  exact ⟨_, lowered, rfl, normal, twice _ normal, opposite _ context⟩

end Schemata
