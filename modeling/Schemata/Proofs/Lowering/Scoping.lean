import Schemata.Proofs.Lowering.Invariant
import Schemata.Proofs.Lowering.Names
import Schemata.Proofs.Predicate.Scoping

set_option autoImplicit false

namespace Schemata

theorem Lower.scopedIn_invariant (names : String → Prop) :
    Lower.OperandInvariant (fun bound predicate => predicate.ScopedIn names bound)
      (fun bound operand => operand.ScopedIn names bound) where
  const _ _ := trivial
  asPredicate {_ operand} within := by cases operand <;> exact within
  negated _ predicate within := by cases predicate <;> exact within
  and := Predicate.allScopedIn_iff.2
  comparison := .intro
  any := .intro
  member {_ object _ _} within read := by cases object <;> cases read <;> exact within
  or := Predicate.allScopedIn_iff.2
  value _ _ := trivial
  field _ below := below
  principal _ := trivial
  arithmetic _ := .intro
  negate within := within
  list := Operand.allScopedIn_iff.2
  predicate within := within
  mono := Operand.ScopedIn.mono

structure LowerContext.Scopes (names : String → Prop) (lowering : LowerContext)
    (site : String × Nat) : Prop where
  named : names site.1
  inlined : ∀ decl operands depth operand,
    Lower.inlinable? lowering.schema site.1 = some decl → operands.length = site.2 →
    (∀ given ∈ operands, given.ScopedIn names (lowering.base + depth)) →
    lowering.inline decl operands depth = .ok operand →
      operand.ScopedIn names (lowering.base + depth)

section

variable {names : String → Prop} {lowering : LowerContext}

theorem Expr.scopedIn_lowerWith
    (arguments : ∀ operand ∈ lowering.arguments, operand.ScopedIn names lowering.base)
    (expr : Expr) (scope : Scope) (operand : Operand)
    (sites : ∀ site ∈ expr.callSites lowering.schema scope, lowering.Scopes names site)
    (lowered : expr.lowerWith lowering scope = .ok operand) :
    operand.ScopedIn names (lowering.base + scope.valueDepth) := by
  refine (Lower.scopedIn_invariant names).of_lowerWith (inherited_callSites (lowering.Scopes names))
    arguments ?_ ?_ expr scope operand sites lowered
  · intros
    trivial
  · intro scope function given span parts operand notAuth notFuture sites length within called
    rw [callSites, if_neg (by simp [notAuth, notFuture]), List.forall_mem_cons] at sites
    unfold Lower.call at called
    split at called
    next decl defined => exact sites.1.inlined decl parts _ operand defined length within called
    next =>
      cases called
      exact ⟨sites.1.named, Operand.allScopedIn_iff.2 within⟩

end

/-- A function of the name is called in an expression, or in a body that is inlined into it. -/
inductive Expr.MayCall (schema : Schema) (scope : Scope) (expr : Expr) (name : String) : Prop
  | directly {given : Nat} (site : (name, given) ∈ expr.callSites schema scope)
  | within {outer : FunctionDecl} {number given : Nat} {body : Expr}
      (inlined : expr.Inlines schema scope outer number) (isBody : outer.body = some body)
      (site : (name, given) ∈ body.callSites schema [.function outer.params])

section

variable {schema : Schema} {scope : Scope} {expr : Expr}

theorem Lower.scopedIn_inlineInside (fuel : Nat) :
    ∀ (inlined : List String) (base : Nat) (decl : FunctionDecl) (operands : List Operand)
      (depth : Nat) (operand : Operand), expr.Inlines schema scope decl operands.length →
      (∀ given ∈ operands, given.ScopedIn (expr.MayCall schema scope) (base + depth)) →
      inlineInside schema fuel inlined base decl operands depth = .ok operand →
        operand.ScopedIn (expr.MayCall schema scope) (base + depth) := by
  induction fuel with
  | zero =>
    intro inlined base decl operands depth operand _ _ lowered
    rcases inlineInside_eq_ok.1 lowered with ⟨_, _, _, wrong, _⟩
    cases wrong
  | succ fuel ih =>
    intro inlined base decl operands depth operand inlines given lowered
    rcases inlineInside_eq_ok.1 lowered with ⟨_, rest, body, same, isBody, lowered⟩
    cases same
    -- A body starts with no values of its own, and its calls are inlined behind those around it.
    refine body.scopedIn_lowerWith given [.function decl.params] operand (fun site called => ?_)
      lowered
    exact ⟨.within inlines isBody called, fun inner operands depth operand defined length =>
      ih _ _ inner operands depth operand (length ▸ .within inlines isBody called defined)⟩

theorem Expr.scopedIn_lower {predicate : Predicate}
    (lowered : expr.lower schema scope = .ok predicate) :
    predicate.ScopedIn (expr.MayCall schema scope) scope.valueDepth := by
  rcases Except.bind_eq_ok.1 lowered with ⟨operand, operandLowered, lowered⟩
  cases lowered
  have sites : ∀ site ∈ expr.callSites schema scope,
      (LowerContext.outside schema).Scopes (expr.MayCall schema scope) site := fun site called =>
    ⟨.directly called, fun decl operands depth operand defined length =>
      Lower.scopedIn_inlineInside _ [] 0 decl operands depth operand
        (length ▸ .called called defined)⟩
  have within : operand.ScopedIn (expr.MayCall schema scope) (0 + scope.valueDepth) :=
    expr.scopedIn_lowerWith (by exact nofun) scope operand sites operandLowered
  rw [Nat.zero_add] at within
  exact (Lower.scopedIn_invariant _).of_expr _ expr within

end

end Schemata
