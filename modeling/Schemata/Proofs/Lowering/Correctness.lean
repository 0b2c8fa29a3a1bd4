import Schemata.Proofs.Lowering.Identity

set_option autoImplicit false

namespace Schemata

theorem Lower.symbol?_of_inlinable? {schema : Schema} {name : String} {decl : FunctionDecl}
    (found : inlinable? schema name = some decl) :
    schema.symbols.symbol? name = some ⟨.function decl, .document⟩ ∧ decl.body.isSome = true := by
  unfold inlinable? at found
  split at found
  next other isFunction origin =>
    split at found
    next defined =>
      cases found
      obtain ⟨known, symbol, same⟩ :=
        SymbolTable.declaration?_eq_some (SymbolTable.function?_eq_some isFunction)
      cases same.symm.trans origin
      exact ⟨symbol, defined⟩
    next => cases found
  next => cases found

theorem Lower.declared_of_inlinable? {document : Document} {name : String} {decl : FunctionDecl}
    (found : inlinable? (Schema.ofDocument document) name = some decl) :
    decl ∈ document.functions ∧ decl.name.name = name ∧ decl.body.isSome = true := by
  obtain ⟨symbol, defined⟩ := symbol?_of_inlinable? found
  obtain ⟨member, named⟩ := SymbolTable.mem_declarations_of_symbol? symbol rfl
  exact ⟨List.mem_filterMap.2 ⟨_, member, rfl⟩, named, defined⟩

/--
Expressions interpreted on values: a name reads the value of the very frame that it means, and two
values of the type of a model are compared as records. Functions with a body are left out.
-/
def Interpretation.direct (schema : Schema) (context : EvalContext) : Interpretation :=
  ⟨schema, context, schema.sameRecord, fun _ _ => .ok .null⟩

theorem Schema.hasKnownFields_of_isValid {document : Document} {options : ValidationOptions}
    (valid : (document.validate options).isValid = true) :
    (Schema.ofDocument document).HasKnownFields :=
  fun _ _ found => document.isFieldType_of_visible valid found

theorem Schema.lower_eq_ok {schema : Schema} {name : String} {record : Model} {expr : Expr}
    {predicate : Predicate} (known : schema.symbols.model? name = some record)
    (lowered : schema.lower name expr = .ok predicate) :
    (expr.check schema true [.record record]).diagnostics = [] ∧
      ∃ operand, expr.lowerWith (.outside schema) [.record record] = .ok operand ∧
        predicate = Lower.asPredicate expr operand := by
  simp only [lower, known] at lowered
  split at lowered
  next clean =>
    obtain ⟨operand, operandLowered, lowered⟩ := Except.bind_eq_ok.1 lowered
    cases lowered
    exact ⟨(List.append_eq_nil_iff.1 clean).1, operand, operandLowered, rfl⟩
  next => cases lowered

/--
A predicate gives the answer, or the error, that its expression is interpreted as, in every context
in which the records that are reached keep their identifying fields.
-/
theorem Schema.eval_lower {document : Document} {options : ValidationOptions} {name : String}
    {record : Model} {expr : Expr} {predicate : Predicate} {context : EvalContext}
    (valid : (document.validate options).isValid = true)
    (known : (Schema.ofDocument document).symbols.model? name = some record)
    (noBodies : ∀ decl ∈ document.functions, decl.body.isSome = true →
      decl.name.name ∉ expr.calls)
    (lowered : (Schema.ofDocument document).lower name expr = .ok predicate)
    (keeps : expr.KeepsIdentity (.direct (Schema.ofDocument document) context)
      [.record record context.record]) :
    predicate.eval context =
      (expr.interpretWith (.direct (Schema.ofDocument document) context)
        [.record record context.record]).map Json.isTrue := by
  obtain ⟨clean, operand, operandLowered, rfl⟩ := lower_eq_ok known lowered
  have builtIn : ∀ name ∈ expr.calls,
      Lower.inlinable? (Schema.ofDocument document) name = none := by
    intro name called
    cases found : Lower.inlinable? (Schema.ofDocument document) name with
    | none => rfl
    | some decl =>
      obtain ⟨member, rfl, defined⟩ := Lower.declared_of_inlinable? found
      exact absurd called (noBodies decl member defined)
  -- No call is inlined, so that it does not matter how calls are inlined.
  let lowering : LowerContext :=
    ⟨Schema.ofDocument document, 0, [], fun _ _ _ => .error (.unresolved "")⟩
  have inlines : lowering.Inlines context fun _ _ => .ok .null := by
    intro decl arguments depth operand values wrong
    cases wrong
  have sameOperand : expr.lowerWith lowering [.record record] = .ok operand := by
    apply expr.lowerWith_of_refines _ _ _ operandLowered
    intro name called decl found
    rw [builtIn name called] at found
    cases found
  -- There are no parameters in scope, so that the arguments of the context do not matter either.
  have carries : Scope.CarriesValues [.record record] := by
    intro frame found
    cases List.mem_singleton.1 found
    rfl
  have denote : expr.ParamsDenote lowering context [] [.record record context.record] :=
    ⟨fun _ _ _ _ _ _ found => absurd found carries.lookup?_ne_param,
      fun _ _ _ _ _ _ _ found => absurd found carries.lookup?_ne_param⟩
  have value := expr.evalIn_lowerWith inlines rfl [.record record context.record] operand denote
    sameOperand
  -- Lowering compares identifying fields; where those are kept, that is to compare records.
  have identity : expr.interpretWith (lowering.meaning context fun _ _ => .ok .null)
        [.record record context.record] =
      expr.interpretWith (.direct (Schema.ofDocument document) context)
        [.record record context.record] :=
    expr.interpretWith_byIdentity (hasKnownFields_of_isValid valid) _ operand carries builtIn
      clean sameOperand keeps
  rw [← identity, ← value, Predicate.eval, Lower.evalIn_asPredicate context _ operandLowered]
  rfl

namespace Blog

def author : Json := .object [("id", .int 1), ("posts", .array [.object [("id", .int 7)]])]

/-- A session of the author, who comes without posts. -/
def session : Json := .object [("id", .int 1)]

def owned : EvalContext := ⟨.object [("id", .int 7), ("owner", author)], some session, none, ""⟩

/-- `owner == auth()` -/
def isOwner : Expr :=
  .binary .eq (reference "owner") (.call (Library.ident "auth") [] Span.zero) Span.zero

def ownerPredicate : Predicate := (schema.lower "Post" isOwner).toOption.getD default

end Blog

theorem Blog.eval_lower_isOwner :
    author.equal session = false ∧ ownerPredicate.eval owned = .ok true ∧
      ownerPredicate.eval owned =
        (isOwner.interpretWith (.direct schema owned) [.record post owned.record]).map
          Json.isTrue := by
  have valid : (document.validate .standard).isValid = true := by decide +kernel
  have known : schema.symbols.model? "Post" = some post := rfl
  -- The owner and the principal are the only records that are reached, and both have their `id`.
  have identified (value : Json) (isUser : value = author ∨ value = session) :
      schema.Identifies Blog.user value := by
    right
    intro field member
    have only : schema.idFields Blog.user = [key] := rfl
    rw [only, List.mem_singleton] at member
    subst member
    rcases isUser with rfl | rfl <;> exact Json.noConfusion
  have keeps : isOwner.KeepsIdentity (.direct schema owned) [.record post owned.record] := by
    intro inner part model value reached isModel evaluated
    cases reached with
    | self => cases isModel
    | left reached =>
      cases reached
      cases Option.some.inj isModel
      exact identified value (.inl (Except.ok.inj (evaluated.symm.trans rfl)))
    | right _ _ reached =>
      generalize principal : Expr.call (Library.ident "auth") [] Span.zero = call at reached
      cases reached with
      | self =>
        subst principal
        cases Option.some.inj isModel
        exact identified value (.inr (Except.ok.inj (evaluated.symm.trans rfl)))
      | _ => simp_all
  exact ⟨rfl, rfl, Schema.eval_lower valid known (by decide +kernel) rfl keeps⟩

end Schemata
