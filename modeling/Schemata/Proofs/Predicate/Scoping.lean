import Schemata.Proofs.Predicate.Induction
import Schemata.Proofs.Result

set_option autoImplicit false

namespace Schemata

mutual

/--
Every value that a predicate reads is one of the first `bound` values in scope, or an element that
`any` adds to them. Every function that it calls has one of the names.
-/
def Predicate.ScopedIn (names : String → Prop) (bound : Nat) : Predicate → Prop
  | .const _ => True
  | .test operand => operand.ScopedIn names bound
  | .not predicate => predicate.ScopedIn names bound
  | .and predicates | .or predicates => Predicate.AllScopedIn names bound predicates
  | .comparison _ left right => left.ScopedIn names bound ∧ right.ScopedIn names bound
  | .any collection predicate =>
      collection.ScopedIn names bound ∧ predicate.ScopedIn names (bound + 1)

def Operand.ScopedIn (names : String → Prop) (bound : Nat) : Operand → Prop
  | .value _ | .principal _ | .future _ => True
  | .field scope _ => scope < bound
  | .arithmetic _ left right => left.ScopedIn names bound ∧ right.ScopedIn names bound
  | .negate operand => operand.ScopedIn names bound
  | .list operands => Operand.AllScopedIn names bound operands
  | .call function operands => names function ∧ Operand.AllScopedIn names bound operands
  | .predicate predicate => predicate.ScopedIn names bound

def Predicate.AllScopedIn (names : String → Prop) (bound : Nat) : List Predicate → Prop
  | [] => True
  | first :: rest => first.ScopedIn names bound ∧ Predicate.AllScopedIn names bound rest

def Operand.AllScopedIn (names : String → Prop) (bound : Nat) : List Operand → Prop
  | [] => True
  | first :: rest => first.ScopedIn names bound ∧ Operand.AllScopedIn names bound rest

end

section

variable {names : String → Prop} {bound : Nat}

theorem Predicate.allScopedIn_iff {parts : List Predicate} :
    Predicate.AllScopedIn names bound parts ↔ ∀ part ∈ parts, part.ScopedIn names bound := by
  induction parts with
  | nil => simp [Predicate.AllScopedIn]
  | cons first rest ih => simp [Predicate.AllScopedIn, ih]

theorem Operand.allScopedIn_iff {items : List Operand} :
    Operand.AllScopedIn names bound items ↔ ∀ item ∈ items, item.ScopedIn names bound := by
  induction items with
  | nil => simp [Operand.AllScopedIn]
  | cons first rest ih => simp [Operand.AllScopedIn, ih]

end

theorem scopedIn_mono_and {names : String → Prop} :
    (∀ predicate : Predicate, ∀ bound more, bound ≤ more → predicate.ScopedIn names bound →
        predicate.ScopedIn names more) ∧
    ∀ operand : Operand, ∀ bound more, bound ≤ more → operand.ScopedIn names bound →
        operand.ScopedIn names more := by
  apply Predicate.induction_and
  case const | value | principal | future => intros; trivial
  case field =>
    intro scope path bound more fewer within
    simp only [Operand.ScopedIn] at within ⊢
    omega
  case test | not | negate | predicate =>
    intro part ih bound more fewer within
    exact ih bound more fewer within
  case and | or =>
    intro parts ih bound more fewer within
    have each := Predicate.allScopedIn_iff.1 within
    exact Predicate.allScopedIn_iff.2 fun part found =>
      ih part found bound more fewer (each part found)
  case comparison | arithmetic =>
    intro op left right leftIh rightIh bound more fewer within
    exact ⟨leftIh bound more fewer within.1, rightIh bound more fewer within.2⟩
  case any =>
    intro collection predicate collectionIh predicateIh bound more fewer within
    exact ⟨collectionIh bound more fewer within.1,
      predicateIh (bound + 1) (more + 1) (by omega) within.2⟩
  case list =>
    intro items ih bound more fewer within
    have each := Operand.allScopedIn_iff.1 within
    exact Operand.allScopedIn_iff.2 fun item found =>
      ih item found bound more fewer (each item found)
  case call =>
    intro function arguments ih bound more fewer within
    have each := Operand.allScopedIn_iff.1 within.2
    exact ⟨within.1, Operand.allScopedIn_iff.2 fun item found =>
      ih item found bound more fewer (each item found)⟩

theorem Operand.ScopedIn.mono {names : String → Prop} {bound more : Nat} {operand : Operand}
    (within : operand.ScopedIn names bound) (fewer : bound ≤ more) :
    operand.ScopedIn names more :=
  scopedIn_mono_and.2 operand bound more fewer within

def EvalError.IsUnknownIn (names : String → Prop) : EvalError → Prop
  | .unknownFunction name => names name ∧ ValueFunction.ofName? name = none
  | .unboundScope _ => False

section

variable (context : EvalContext) {names : String → Prop}

theorem Operand.failsOnly_evalEach {scopes : List Json} {items : List Operand}
    (each : ∀ item ∈ items,
      FailsOnly (EvalError.IsUnknownIn names) (item.evalIn context scopes)) :
    FailsOnly (EvalError.IsUnknownIn names) (Operand.evalEach context scopes items) := by
  rw [Operand.evalEach_eq_mapM]
  exact .mapM (List.forall_mem_map.2 each)

theorem EvalContext.failsOnly_call {function : String} (named : names function)
    (values : List Json) :
    FailsOnly (EvalError.IsUnknownIn names) (context.call function values) := by
  unfold call
  cases known : ValueFunction.ofName? function with
  | none => exact .ofError ⟨named, known⟩
  | some found => exact .ok _

theorem failsOnly_evalIn_and :
    (∀ predicate : Predicate, ∀ scopes : List Json, predicate.ScopedIn names scopes.length →
      FailsOnly (EvalError.IsUnknownIn names) (predicate.evalIn context scopes)) ∧
    ∀ operand : Operand, ∀ scopes : List Json, operand.ScopedIn names scopes.length →
      FailsOnly (EvalError.IsUnknownIn names) (operand.evalIn context scopes) := by
  apply Predicate.induction_and
  case const | value | principal | future =>
    intros
    simp only [Predicate.evalIn, Operand.evalIn]
    exact .ok _
  case field =>
    intro scope path scopes within
    simp only [Operand.ScopedIn] at within
    simp only [Operand.evalIn, EvalContext.readField, List.getElem?_eq_getElem within]
    exact .ok _
  case test | not | negate | predicate =>
    intro part ih scopes within
    simp only [Predicate.evalIn, Operand.evalIn]
    exact .bind (ih scopes within) fun value _ => .ok _
  case and =>
    intro parts ih scopes within
    have each := Predicate.allScopedIn_iff.1 within
    rw [Predicate.evalIn, Predicate.evalAll_eq_allM]
    exact .allM fun part found => ih part found scopes (each part found)
  case or =>
    intro parts ih scopes within
    have each := Predicate.allScopedIn_iff.1 within
    rw [Predicate.evalIn, Predicate.evalAny_eq_anyM]
    exact .anyM fun part found => ih part found scopes (each part found)
  case comparison | arithmetic =>
    intro op left right leftIh rightIh scopes within
    simp only [Predicate.evalIn, Operand.evalIn]
    exact .bind (leftIh scopes within.1) fun _ _ =>
      .bind (rightIh scopes within.2) fun _ _ => .ok _
  case any =>
    intro collection predicate collectionIh predicateIh scopes within
    rw [Predicate.evalIn]
    refine .bind (collectionIh scopes within.1) fun value _ => .anyM fun item _ => ?_
    -- The element is one more value in scope.
    apply predicateIh
    rw [List.length_append, List.length_singleton]
    exact within.2
  case list =>
    intro items ih scopes within
    have each := Operand.allScopedIn_iff.1 within
    rw [Operand.evalIn]
    exact .bind (Operand.failsOnly_evalEach context fun item found =>
      ih item found scopes (each item found)) fun values _ => .ok _
  case call =>
    intro function arguments ih scopes within
    have each := Operand.allScopedIn_iff.1 within.2
    rw [Operand.evalIn]
    exact .bind (Operand.failsOnly_evalEach context fun item found =>
      ih item found scopes (each item found)) fun values _ =>
        context.failsOnly_call within.1 values

theorem Predicate.ScopedIn.failsOnly_eval {predicate : Predicate}
    (within : predicate.ScopedIn names 1) :
    FailsOnly (EvalError.IsUnknownIn names) (predicate.eval context) :=
  (failsOnly_evalIn_and context).1 predicate [context.record] within

end

end Schemata
