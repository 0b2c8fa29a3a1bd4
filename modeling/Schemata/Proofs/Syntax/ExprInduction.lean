import Schemata.Syntax.Expr

set_option autoImplicit false

namespace Schemata

@[elab_as_elim]
theorem Expr.inductionOn {motive : Expr → Prop} (expr : Expr)
    (literal : ∀ value span, motive (.literal value span))
    (this : ∀ span, motive (.this span))
    (reference : ∀ name span, motive (.reference name span))
    (access : ∀ object member span, motive object → motive (.access object member span))
    (unary : ∀ op operand span, motive operand → motive (.unary op operand span))
    (binary : ∀ op left right span, motive left → motive right →
      motive (.binary op left right span))
    (call : ∀ function arguments span, (∀ argument ∈ arguments, motive argument.value) →
      motive (.call function arguments span))
    (list : ∀ items span, (∀ item ∈ items, motive item) → motive (.list items span))
    (quantified : ∀ collection quantifier condition span, motive collection → motive condition →
      motive (.quantified collection quantifier condition span)) :
    motive expr :=
  @Expr.rec motive (fun argument => motive argument.value)
    (fun arguments => ∀ argument ∈ arguments, motive argument.value)
    (fun items => ∀ item ∈ items, motive item)
    literal this reference access unary binary call list quantified
    (fun _ ih => ih) (fun _ _ ih => ih)
    (fun _ found => nomatch found)
    (fun _ _ first others => List.forall_mem_cons.2 ⟨first, others⟩)
    (fun _ found => nomatch found)
    (fun _ _ first others => List.forall_mem_cons.2 ⟨first, others⟩) expr

end Schemata
