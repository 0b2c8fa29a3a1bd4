import Schemata.Proofs.Syntax.ExprInduction
import Schemata.Proofs.Syntax.Outline
import Schemata.Proofs.Validation.Clean

set_option autoImplicit false

namespace Schemata

section

variable {schema : Schema} {scope : Scope} {future : Bool}

theorem Expr.value_checkAll {items : List Expr}
    (each : ∀ item ∈ items, (item.check schema future scope).value = item.typeIn schema scope) :
    (Expr.checkAll schema future scope items).value = items.map (Expr.typeIn schema scope) := by
  induction items with
  | nil => rfl
  | cons item rest ih =>
    obtain ⟨here, behind⟩ := List.forall_mem_cons.1 each
    simp only [checkAll, Checked.value_bind, Checked.value_pure, here, ih behind, List.map_cons]

/-- Whether the record after an update may be used has no influence on a type. -/
theorem Expr.value_check (future : Bool) (expr : Expr) :
    ∀ scope : Scope, (expr.check schema future scope).value = expr.typeIn schema scope := by
  induction expr using Expr.inductionOn with
  | literal | this | reference => exact fun scope => rfl
  | access object member span ih =>
    intro scope
    rw [typeIn, check, check, Checked.value_bind, Checked.value_bind, ih scope, typeIn]
  | unary op operand span ih =>
    intro scope
    rw [typeIn, check, check, Checked.value_bind, Checked.value_bind, ih scope, typeIn]
  | binary op left right span leftIh rightIh =>
    intro scope
    simp only [typeIn, check, Checked.value_bind, leftIh scope, rightIh scope]
  | call function arguments span ih =>
    intro scope
    rw [typeIn, check, check]
    split
    · rfl
    · rfl
    · split <;> rfl
  | list items span ih =>
    intro scope
    simp only [typeIn, check, Checked.value_bind, Checked.value_pure,
      value_checkAll fun item found => ih item found scope]
    rw [value_checkAll fun item found => rfl]
  | quantified collection quantifier condition span collectionIh conditionIh =>
    -- A collection predicate is a truth value whatever is wrong with its parts.
    intro scope
    rw [typeIn, check, check, Checked.value_bind, Checked.value_bind, collectionIh scope, typeIn]
    split
    · rfl
    · split <;> rfl
    · rfl

end

def Checked.ErrorsAt {α : Type} (good : Span → Prop) (checked : Checked α) : Prop :=
  ∀ diagnostic ∈ checked.diagnostics, diagnostic.isError = true ∧ good diagnostic.span

namespace Checked.ErrorsAt

variable {α β : Type} {good : Span → Prop}

theorem ofNone {checked : Checked α} (none : checked.diagnostics = []) : checked.ErrorsAt good := by
  intro diagnostic reported
  rw [none] at reported
  cases reported

theorem ofOne {value : α} {span : Span} {issue : Issue} (here : good span) :
    (⟨value, [.error span issue]⟩ : Checked α).ErrorsAt good := by
  intro diagnostic reported
  cases List.mem_singleton.1 reported
  exact ⟨rfl, here⟩

theorem bind {first : Checked α} {next : α → Checked β} (head : first.ErrorsAt good)
    (tail : (next first.value).ErrorsAt good) : (first >>= next).ErrorsAt good :=
  List.forall_mem_append.2 ⟨head, tail⟩

theorem ofReport {condition : Bool} {span : Span} {issue : TypeIssue} (here : good span) :
    (Typing.reportUnless condition span issue).ErrorsAt good := by
  cases condition
  · exact ofOne here
  · exact ofNone rfl

theorem eq_nil {checked : Checked α} (errors : checked.ErrorsAt good)
    (clean : Clean checked.diagnostics) : checked.diagnostics = [] := by
  refine List.eq_nil_iff_forall_not_mem.2 fun diagnostic reported => ?_
  exact Bool.false_ne_true ((clean diagnostic reported).symm.trans (errors diagnostic reported).1)

end Checked.ErrorsAt

section

open Checked.ErrorsAt

variable {schema : Schema} {scope : Scope} {future : Bool} {good : Span → Prop}

namespace Typing

variable {span : Span} {name : Ident}

theorem errorsAt_field {found : Field} (here : good span) :
    (field schema found span).ErrorsAt good := by
  unfold field
  split
  · exact ofOne here
  · exact ofNone rfl

theorem errorsAt_this (here : good span) : (this scope span).ErrorsAt good := by
  unfold this
  split
  · exact ofNone rfl
  · exact ofOne here

theorem errorsAt_reference (here : good name.span) :
    (reference schema scope name).ErrorsAt good := by
  unfold reference
  split
  · exact ofNone rfl
  · exact errorsAt_field here
  · exact ofNone rfl
  · exact ofOne here

theorem errorsAt_access {object : ValueType} (here : good name.span) :
    (access schema object name).ErrorsAt good := by
  unfold access
  split
  · exact ofNone rfl
  · split
    · exact ofOne here
    · split
      · exact errorsAt_field here
      · exact ofOne here
  · exact ofOne here

theorem errorsAt_unary {op : UnaryOp} {operand : ValueType} (here : good span) :
    (unary op operand span).ErrorsAt good := by
  unfold unary
  split
  · exact bind (ofReport here) (ofNone rfl)
  · split
    · exact ofNone rfl
    · exact ofOne here

theorem errorsAt_binary {op : BinaryOp} {left right : ValueType} (here : good span) :
    (binary op left right span).ErrorsAt good := by
  unfold binary
  split
  · exact bind (ofReport here) (ofNone rfl)
  · split
    · split
      · exact ofNone rfl
      · exact ofOne here
    · split <;> exact bind (ofReport here) (ofNone rfl)

theorem errorsAt_principal (here : good span) : (principal schema span).ErrorsAt good := by
  unfold principal
  split
  · exact ofNone rfl
  · exact ofOne here

theorem errorsAt_updated (here : good span) : (updated future scope span).ErrorsAt good := by
  refine bind (ofReport here) ?_
  split
  · exact ofNone rfl
  · exact ofOne here

theorem errorsAt_argumentCount {decl : FunctionDecl} {given : Nat} (here : good name.span) :
    (argumentCount decl name given).ErrorsAt good := by
  unfold argumentCount
  simp only
  split <;> exact ofReport here

theorem errorsAt_argument {function : String} {params : List FunctionParam} {value : Expr}
    {type : ValueType} (here : good value.span) :
    (argument schema function params value type).ErrorsAt good := by
  unfold argument
  split
  · exact ofNone rfl
  · exact ofReport here

end Typing

theorem Expr.errorsAt_checkAll {items : List Expr}
    (each : ∀ item ∈ items, (item.check schema future scope).ErrorsAt good) :
    (Expr.checkAll schema future scope items).ErrorsAt good := by
  induction items with
  | nil => exact ofNone rfl
  | cons item rest ih =>
    obtain ⟨here, behind⟩ := List.forall_mem_cons.1 each
    exact bind here (bind (ih behind) (ofNone rfl))

theorem Argument.errorsAt_checkAll {function : String} {known : Bool} {arguments : List Argument}
    (all : ∀ argument ∈ arguments, argument.All good)
    (each : ∀ argument ∈ arguments, (argument.value.check schema future scope).ErrorsAt good) :
    ∀ params : List FunctionParam,
      (Argument.checkAll schema future scope function known params arguments).ErrorsAt good := by
  induction arguments with
  | nil => exact fun params => ofNone (by rw [checkAll]; rfl)
  | cons argument rest ih =>
    obtain ⟨here, behind⟩ := List.forall_mem_cons.1 each
    obtain ⟨own, others⟩ := List.forall_mem_cons.1 all
    have fits := Expr.all_span own.value
    intro params
    cases argument with
    | positional value =>
      rw [checkAll]
      exact bind here (bind (Typing.errorsAt_argument fits) (ih others behind _))
    | named name value =>
      rw [checkAll]
      exact bind (ofReport (all_named.1 own).1)
        (bind here (bind (Typing.errorsAt_argument fits) (ih others behind _)))

theorem Expr.errorsAt_check (expr : Expr) : expr.outline.All good →
    ∀ scope : Scope, (expr.check schema future scope).ErrorsAt good := by
  -- Beside the reports on the parts, what is reported stands at the whole, at its name, or at the
  -- whole of one part.
  induction expr using Expr.inductionOn with
  | literal => exact fun _ _ => ofNone rfl
  | this span => exact fun all _ => Typing.errorsAt_this (all_span all)
  | reference name span =>
    intro all scope
    obtain ⟨-, named⟩ : good span ∧ good name.span := by simpa [outline] using all
    exact Typing.errorsAt_reference named
  | access object member span ih =>
    intro all scope
    obtain ⟨-, inner, named⟩ : good span ∧ object.outline.All good ∧ good member.span := by
      simpa [outline] using all
    exact bind (ih inner scope) (Typing.errorsAt_access named)
  | unary op operand span ih =>
    intro all scope
    obtain ⟨here, inner⟩ : good span ∧ operand.outline.All good := by simpa [outline] using all
    exact bind (ih inner scope) (Typing.errorsAt_unary here)
  | binary op left right span leftIh rightIh =>
    intro all scope
    obtain ⟨here, first, second⟩ : good span ∧ left.outline.All good ∧ right.outline.All good := by
      simpa [outline] using all
    exact bind (leftIh first scope) (bind (rightIh second scope) (Typing.errorsAt_binary here))
  | call function arguments span ih =>
    intro all scope
    obtain ⟨-, named, each⟩ := all_call.1 all
    have given (name : String) (known : Bool) (params : List FunctionParam) :
        (Argument.checkAll schema future scope name known params arguments).ErrorsAt good :=
      Argument.errorsAt_checkAll each
        (fun argument found => ih argument found (each argument found).value scope) params
    rw [check]
    split
    · exact Typing.errorsAt_principal named
    · exact Typing.errorsAt_updated named
    · split
      · exact bind (ofOne named) (bind (given _ _ _) (ofNone rfl))
      · exact bind (Typing.errorsAt_argumentCount named) (bind (given _ _ _) (ofNone rfl))
  | list items span ih =>
    intro all scope
    obtain ⟨-, each⟩ := all_list.1 all
    exact bind (errorsAt_checkAll fun item found => ih item found (each item found) scope)
      (ofNone rfl)
  | quantified collection quantifier condition span collectionIh conditionIh =>
    intro all scope
    obtain ⟨-, first, second⟩ :
        good span ∧ collection.outline.All good ∧ condition.outline.All good := by
      simpa [outline] using all
    have misused := all_span first
    refine bind (collectionIh first scope) ?_
    split
    · exact ofNone rfl
    · split
      · exact bind (conditionIh second _) (bind (ofReport (all_span second)) (ofNone rfl))
      · exact bind (ofReport misused) (ofNone rfl)
    · exact bind (ofReport misused) (ofNone rfl)

theorem Expr.eq_nil_of_clean {expr : Expr}
    (clean : Clean (expr.check schema future scope).diagnostics) :
    (expr.check schema future scope).diagnostics = [] := by
  have anywhere : expr.outline.All fun _ => True := fun _ _ => trivial
  exact (expr.errorsAt_check anywhere scope).eq_nil clean

end

namespace Typing

variable {schema : Schema} {scope : Scope} {future : Bool}

theorem clean_condition {collection condition : Expr} {quantifier : Quantifier} {span : Span}
    {model : Model}
    (element : (collection.typeIn schema scope).kind = .model model)
    (clean : ((Expr.quantified collection quantifier condition span).check schema future
      scope).diagnostics = []) :
    (collection.check schema future scope).diagnostics = [] ∧
      (condition.check schema future (.element model :: scope)).diagnostics = [] := by
  rw [← collection.value_check future] at element
  simp only [Expr.check, Checked.diagnostics_bind, List.append_eq_nil_iff, element] at clean
  refine ⟨clean.1, ?_⟩
  have inner := clean.2
  -- The condition is checked, and only the last check depends on the kind of its type.
  split at inner
  · simp only [Checked.diagnostics_bind, List.append_eq_nil_iff] at inner
    exact inner.1
  · simp [Typing.reportUnless, reportIf] at inner

theorem clean_checkAll {items : List Expr}
    (clean : (Expr.checkAll schema future scope items).diagnostics = []) :
    ∀ item ∈ items, (item.check schema future scope).diagnostics = [] := by
  induction items with
  | nil => exact fun _ found => nomatch found
  | cons item rest ih =>
    simp only [Expr.checkAll, Checked.diagnostics_bind, List.append_eq_nil_iff] at clean
    exact List.forall_mem_cons.2 ⟨clean.1, ih clean.2.1⟩

theorem clean_arguments {function : String} {known : Bool} {arguments : List Argument} :
    ∀ {params : List FunctionParam},
      (Argument.checkAll schema future scope function known params arguments).diagnostics = [] →
      ∀ argument ∈ arguments, (argument.value.check schema future scope).diagnostics = [] := by
  induction arguments with
  | nil => exact fun _ _ found => nomatch found
  | cons argument rest ih =>
    intro params clean
    cases argument with
    | positional value =>
      simp only [Argument.checkAll, Checked.diagnostics_bind, List.append_eq_nil_iff] at clean
      exact List.forall_mem_cons.2 ⟨clean.1, ih clean.2.2⟩
    | named name value =>
      simp only [Argument.checkAll, Checked.diagnostics_bind, List.append_eq_nil_iff] at clean
      exact List.forall_mem_cons.2 ⟨clean.2.1, ih clean.2.2.2⟩

theorem clean_call {function : Ident} {arguments : List Argument} {span : Span}
    (evaluated : function.name ≠ "auth" ∧ function.name ≠ "future")
    (clean : ((Expr.call function arguments span).check schema future scope).diagnostics = []) :
    ∀ argument ∈ arguments, (argument.value.check schema future scope).diagnostics = [] := by
  cases known : schema.symbols.function? function.name with
  | none =>
    rw [Expr.check_unknown _ _ _ _ _ evaluated.1 evaluated.2 known] at clean
    simp [Checked.report] at clean
  | some decl =>
    rw [Expr.check_call _ _ _ _ _ evaluated.1 evaluated.2 known] at clean
    simp only [Checked.diagnostics_bind, List.append_eq_nil_iff] at clean
    exact clean_arguments clean.2.1

end Typing

/--
What is asked of an expression in its scope is asked of its parts in theirs. What is written between
the brackets of `auth` and `future` is not a part, nor is a condition on elements of no model.
-/
structure Expr.Inherited (schema : Schema) (asked : Scope → Expr → Prop) : Prop where
  object : ∀ {scope object member span},
    asked scope (.access object member span) → asked scope object
  operand : ∀ {scope op operand span}, asked scope (.unary op operand span) → asked scope operand
  left : ∀ {scope op left right span}, asked scope (.binary op left right span) → asked scope left
  right : ∀ {scope op left right span},
    asked scope (.binary op left right span) → asked scope right
  argument : ∀ {scope span} {function : Ident} {arguments : List Argument} {argument : Argument},
    function.name ≠ "auth" → function.name ≠ "future" → argument ∈ arguments →
      asked scope (.call function arguments span) → asked scope argument.value
  item : ∀ {scope items item span}, item ∈ items →
    asked scope (.list items span) → asked scope item
  collection : ∀ {scope collection quantifier condition span},
    asked scope (.quantified collection quantifier condition span) → asked scope collection
  condition : ∀ {scope quantifier condition span model} {collection : Expr},
    (collection.typeIn schema scope).kind = .model model →
      asked scope (.quantified collection quantifier condition span) →
        asked (.element model :: scope) condition

section

variable {schema : Schema} {asked others : Scope → Expr → Prop}

theorem Expr.inherited_true : Inherited schema fun _ _ => True := by
  constructor <;> intros <;> trivial

theorem Expr.Inherited.and (first : Inherited schema asked) (second : Inherited schema others) :
    Inherited schema fun scope expr => asked scope expr ∧ others scope expr where
  object both := ⟨first.object both.1, second.object both.2⟩
  operand both := ⟨first.operand both.1, second.operand both.2⟩
  left both := ⟨first.left both.1, second.left both.2⟩
  right both := ⟨first.right both.1, second.right both.2⟩
  argument notAuth notFuture given both :=
    ⟨first.argument notAuth notFuture given both.1, second.argument notAuth notFuture given both.2⟩
  item listed both := ⟨first.item listed both.1, second.item listed both.2⟩
  collection both := ⟨first.collection both.1, second.collection both.2⟩
  condition kind both := ⟨first.condition kind both.1, second.condition kind both.2⟩

theorem Expr.inherited_clean (schema : Schema) (future : Bool) :
    Inherited schema fun scope expr => (expr.check schema future scope).diagnostics = [] where
  object clean := by
    simp only [check, Checked.diagnostics_bind, List.append_eq_nil_iff] at clean
    exact clean.1
  operand clean := by
    simp only [check, Checked.diagnostics_bind, List.append_eq_nil_iff] at clean
    exact clean.1
  left clean := by
    simp only [check, Checked.diagnostics_bind, List.append_eq_nil_iff] at clean
    exact clean.1
  right clean := by
    simp only [check, Checked.diagnostics_bind, List.append_eq_nil_iff] at clean
    exact clean.2.1
  argument notAuth notFuture given clean := Typing.clean_call ⟨notAuth, notFuture⟩ clean _ given
  item listed clean := by
    simp only [check, Checked.diagnostics_bind, List.append_eq_nil_iff] at clean
    exact Typing.clean_checkAll clean.1 _ listed
  collection clean := by
    simp only [check, Checked.diagnostics_bind, List.append_eq_nil_iff] at clean
    exact clean.1
  condition kind clean := (Typing.clean_condition kind clean).2

end

theorem Document.check_body {document : Document} {options : ValidationOptions}
    (valid : (document.validate options).isValid = true) {decl : FunctionDecl} {body : Expr}
    (member : decl ∈ document.functions) (defined : decl.body = some body) :
    (body.check (.ofDocument document) false [.function decl.params]).diagnostics = [] := by
  have clean := Clean.flatMap.1 (document.clean_of_isValid valid .functions) decl member
  simp only [FunctionDecl.check, defined, Clean.append] at clean
  exact Expr.eq_nil_of_clean clean.1

end Schemata
