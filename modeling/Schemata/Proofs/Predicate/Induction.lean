import Schemata.Predicate.Eval

set_option autoImplicit false

namespace Schemata

theorem Predicate.induction_and {motive : Predicate → Prop} {operands : Operand → Prop}
    (const : ∀ value, motive (.const value))
    (test : ∀ operand, operands operand → motive (.test operand))
    (not : ∀ predicate, motive predicate → motive (.not predicate))
    (and : ∀ parts, (∀ part ∈ parts, motive part) → motive (.and parts))
    (or : ∀ parts, (∀ part ∈ parts, motive part) → motive (.or parts))
    (comparison : ∀ op left right, operands left → operands right →
      motive (.comparison op left right))
    (any : ∀ collection predicate, operands collection → motive predicate →
      motive (.any collection predicate))
    (value : ∀ value, operands (.value value))
    (field : ∀ scope path, operands (.field scope path))
    (principal : ∀ path, operands (.principal path))
    (future : ∀ path, operands (.future path))
    (arithmetic : ∀ op left right, operands left → operands right →
      operands (.arithmetic op left right))
    (negate : ∀ operand, operands operand → operands (.negate operand))
    (list : ∀ items, (∀ item ∈ items, operands item) → operands (.list items))
    (call : ∀ function arguments, (∀ argument ∈ arguments, operands argument) →
      operands (.call function arguments))
    (predicate : ∀ predicate, motive predicate → operands (.predicate predicate)) :
    (∀ predicate, motive predicate) ∧ ∀ operand, operands operand :=
  have parts := @Predicate.rec motive operands (fun parts => ∀ part ∈ parts, motive part)
    (fun items => ∀ item ∈ items, operands item)
    const test not and or comparison any value field principal future arithmetic negate list call
    predicate (fun _ found => nomatch found)
    (fun _ _ first others => List.forall_mem_cons.2 ⟨first, others⟩)
    (fun _ found => nomatch found)
    (fun _ _ first others => List.forall_mem_cons.2 ⟨first, others⟩)
  ⟨parts, fun operand =>
    @Operand.rec motive operands (fun parts => ∀ part ∈ parts, motive part)
      (fun items => ∀ item ∈ items, operands item)
      const test not and or comparison any value field principal future arithmetic negate list call
      predicate (fun _ found => nomatch found)
      (fun _ _ first others => List.forall_mem_cons.2 ⟨first, others⟩)
      (fun _ found => nomatch found)
      (fun _ _ first others => List.forall_mem_cons.2 ⟨first, others⟩) operand⟩

variable (context : EvalContext) (scopes : List Json)

theorem Predicate.evalAll_eq_allM (parts : List Predicate) :
    Predicate.evalAll context scopes parts = parts.allM (Predicate.evalIn context scopes) := by
  induction parts with
  | nil => rfl
  | cons first rest ih =>
    rw [Predicate.evalAll, List.allM, ih]
    cases first.evalIn context scopes with
    | error error => rfl
    | ok value => cases value <;> rfl

theorem Predicate.evalAny_eq_anyM (parts : List Predicate) :
    Predicate.evalAny context scopes parts = parts.anyM (Predicate.evalIn context scopes) := by
  induction parts with
  | nil => rfl
  | cons first rest ih =>
    rw [Predicate.evalAny, List.anyM, ih]
    cases first.evalIn context scopes with
    | error error => rfl
    | ok value => cases value <;> rfl

theorem Operand.evalEach_eq_mapM (items : List Operand) :
    Operand.evalEach context scopes items =
      (items.map (Operand.evalIn context scopes)).mapM id := by
  induction items with
  | nil => rfl
  | cons first rest ih =>
    rw [Operand.evalEach, List.map_cons, List.mapM_cons, ih]
    rfl

theorem Operand.evalEach_eq_ok {items : List Operand} {values : List Json}
    (evaluated : Operand.evalEach context scopes items = .ok values) :
    items.map (Operand.evalIn context scopes) = values.map .ok := by
  induction items generalizing values with
  | nil =>
    cases evaluated
    rfl
  | cons first rest ih =>
    rw [Operand.evalEach] at evaluated
    cases head : first.evalIn context scopes with
    | error error =>
      rw [head] at evaluated
      cases evaluated
    | ok value =>
      cases tail : Operand.evalEach context scopes rest with
      | error error =>
        rw [head, tail] at evaluated
        cases evaluated
      | ok others =>
        rw [head, tail] at evaluated
        cases evaluated
        rw [List.map_cons, head, ih tail, List.map_cons]

end Schemata
