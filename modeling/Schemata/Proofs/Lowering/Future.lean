import Schemata.Proofs.Lowering.Correctness
import Schemata.Proofs.Lowering.Invariant

/-!
# Where the record after an update is read

An expression that was checked without the right to use `future()` may still hold it in the
condition of a collection predicate that the check passes over, since it does not know the elements.
Lowering refuses such a predicate. So what is lowered in the scope in which it was checked reads no
record after an update, and neither do the bodies that are inlined.
-/

set_option autoImplicit false

namespace Schemata

mutual

def Predicate.ignoresFuture : Predicate → Bool
  | .const _ => true
  | .test operand => operand.ignoresFuture
  | .not predicate => predicate.ignoresFuture
  | .and predicates | .or predicates => Predicate.allIgnoreFuture predicates
  | .comparison _ left right => left.ignoresFuture && right.ignoresFuture
  | .any collection predicate => collection.ignoresFuture && predicate.ignoresFuture

def Operand.ignoresFuture : Operand → Bool
  | .value _ | .field _ _ | .principal _ => true
  | .future _ => false
  | .arithmetic _ left right => left.ignoresFuture && right.ignoresFuture
  | .negate operand => operand.ignoresFuture
  | .list operands | .call _ operands => Operand.allIgnoreFuture operands
  | .predicate predicate => predicate.ignoresFuture

def Predicate.allIgnoreFuture : List Predicate → Bool
  | [] => true
  | first :: rest => first.ignoresFuture && Predicate.allIgnoreFuture rest

def Operand.allIgnoreFuture : List Operand → Bool
  | [] => true
  | first :: rest => first.ignoresFuture && Operand.allIgnoreFuture rest

end

theorem Predicate.allIgnoreFuture_iff {parts : List Predicate} :
    Predicate.allIgnoreFuture parts = true ↔ ∀ part ∈ parts, part.ignoresFuture = true := by
  induction parts with
  | nil => simp [Predicate.allIgnoreFuture]
  | cons first rest ih => simp [Predicate.allIgnoreFuture, ih]

theorem Operand.allIgnoreFuture_iff {items : List Operand} :
    Operand.allIgnoreFuture items = true ↔ ∀ item ∈ items, item.ignoresFuture = true := by
  induction items with
  | nil => simp [Operand.allIgnoreFuture]
  | cons first rest ih => simp [Operand.allIgnoreFuture, ih]

section

variable (context : EvalContext) (other : Option Json)

theorem evalIn_future_and :
    (∀ predicate : Predicate, predicate.ignoresFuture = true → ∀ scopes : List Json,
        predicate.evalIn { context with future := other } scopes =
          predicate.evalIn context scopes) ∧
    ∀ operand : Operand, operand.ignoresFuture = true → ∀ scopes : List Json,
        operand.evalIn { context with future := other } scopes =
          operand.evalIn context scopes := by
  have evalEach {items : List Operand} {scopes : List Json}
      (each : ∀ item ∈ items, item.evalIn { context with future := other } scopes =
        item.evalIn context scopes) :
      Operand.evalEach { context with future := other } scopes items =
        Operand.evalEach context scopes items := by
    rw [Operand.evalEach_eq_mapM, Operand.evalEach_eq_mapM, List.map_congr_left each]
  -- The contexts differ in what only a `future` operand reads, which the side condition excludes.
  apply Predicate.induction_and
  case const | value | field => intros; simp only [Predicate.evalIn, Operand.evalIn]
  case principal =>
    intro path _ scopes
    simp only [Operand.evalIn]
    rfl
  case future =>
    intro path ignores
    cases ignores
  case test =>
    intro operand ih ignores scopes
    simp only [Predicate.evalIn, ih ignores scopes]
  case not =>
    intro predicate ih ignores scopes
    simp only [Predicate.evalIn, ih ignores scopes]
  case and =>
    intro parts ih ignores scopes
    have each := Predicate.allIgnoreFuture_iff.1 ignores
    simp only [Predicate.evalIn, Predicate.evalAll_eq_allM]
    exact allM_congr fun part found => ih part found (each part found) scopes
  case or =>
    intro parts ih ignores scopes
    have each := Predicate.allIgnoreFuture_iff.1 ignores
    simp only [Predicate.evalIn, Predicate.evalAny_eq_anyM]
    exact anyM_congr fun part found => ih part found (each part found) scopes
  case comparison =>
    intro op left right leftIh rightIh ignores scopes
    simp only [Predicate.ignoresFuture, Bool.and_eq_true] at ignores
    simp only [Predicate.evalIn, leftIh ignores.1 scopes, rightIh ignores.2 scopes]
  case any =>
    intro collection predicate collectionIh predicateIh ignores scopes
    simp only [Predicate.ignoresFuture, Bool.and_eq_true] at ignores
    simp only [Predicate.evalIn, collectionIh ignores.1 scopes, predicateIh ignores.2]
  case arithmetic =>
    intro op left right leftIh rightIh ignores scopes
    simp only [Operand.ignoresFuture, Bool.and_eq_true] at ignores
    simp only [Operand.evalIn, leftIh ignores.1 scopes, rightIh ignores.2 scopes]
  case negate =>
    intro operand ih ignores scopes
    simp only [Operand.evalIn, ih ignores scopes]
  case list =>
    intro items ih ignores scopes
    have each := Operand.allIgnoreFuture_iff.1 ignores
    simp only [Operand.evalIn, evalEach fun item found => ih item found (each item found) scopes]
  case call =>
    intro function arguments ih ignores scopes
    have each := Operand.allIgnoreFuture_iff.1 ignores
    simp only [Operand.evalIn, evalEach fun item found => ih item found (each item found) scopes]
    rfl
  case predicate =>
    intro predicate ih ignores scopes
    simp only [Operand.evalIn, ih ignores scopes]

theorem Predicate.eval_future {predicate : Predicate} (ignores : predicate.ignoresFuture = true) :
    predicate.eval { context with future := other } = predicate.eval context :=
  (evalIn_future_and context other).1 predicate ignores [context.record]

end

mutual

def Expr.mentionsFuture : Expr → Bool
  | .literal _ _ | .this _ | .reference _ _ => false
  | .access object _ _ => object.mentionsFuture
  | .unary _ operand _ => operand.mentionsFuture
  | .binary _ left right _ => left.mentionsFuture || right.mentionsFuture
  | .call function arguments _ =>
      if function.name = "auth" then false
      else if function.name = "future" then true
      else Argument.anyMentionsFuture arguments
  | .list items _ => Expr.anyMentionsFuture items
  | .quantified collection _ condition _ => collection.mentionsFuture || condition.mentionsFuture

def Expr.anyMentionsFuture : List Expr → Bool
  | [] => false
  | item :: rest => item.mentionsFuture || Expr.anyMentionsFuture rest

def Argument.anyMentionsFuture : List Argument → Bool
  | [] => false
  | .positional value :: rest | .named _ value :: rest =>
      value.mentionsFuture || Argument.anyMentionsFuture rest

end

mutual

/--
Decide whether an expression asks for the record after an update where the check does not look: in
the condition of a collection predicate whose elements are of no model.
-/
def Expr.hidesFuture (schema : Schema) (scope : Scope) : Expr → Bool
  | .literal _ _ | .this _ | .reference _ _ => false
  | .access object _ _ => object.hidesFuture schema scope
  | .unary _ operand _ => operand.hidesFuture schema scope
  | .binary _ left right _ => left.hidesFuture schema scope || right.hidesFuture schema scope
  | .call function arguments _ =>
      if function.name = "auth" ∨ function.name = "future" then false
      else Argument.anyHidesFuture schema scope arguments
  | .list items _ => Expr.anyHidesFuture schema scope items
  | .quantified collection _ condition _ =>
      collection.hidesFuture schema scope ||
        match (collection.typeIn schema scope).kind with
        | .model model => condition.hidesFuture schema (.element model :: scope)
        | _ => condition.mentionsFuture

def Expr.anyHidesFuture (schema : Schema) (scope : Scope) : List Expr → Bool
  | [] => false
  | item :: rest => item.hidesFuture schema scope || Expr.anyHidesFuture schema scope rest

def Argument.anyHidesFuture (schema : Schema) (scope : Scope) : List Argument → Bool
  | [] => false
  | .positional value :: rest | .named _ value :: rest =>
      value.hidesFuture schema scope || Argument.anyHidesFuture schema scope rest

end

section

variable {schema : Schema} {scope : Scope}

theorem Expr.anyMentionsFuture_iff {items : List Expr} :
    Expr.anyMentionsFuture items = false ↔ ∀ item ∈ items, item.mentionsFuture = false := by
  induction items with
  | nil => simp [anyMentionsFuture]
  | cons first rest ih => simp [anyMentionsFuture, ih]

theorem Argument.anyMentionsFuture_iff {arguments : List Argument} :
    Argument.anyMentionsFuture arguments = false ↔
      ∀ argument ∈ arguments, argument.value.mentionsFuture = false := by
  induction arguments with
  | nil => simp [anyMentionsFuture]
  | cons first rest ih => cases first <;> simp [anyMentionsFuture, Argument.value, ih]

theorem Expr.anyHidesFuture_iff {items : List Expr} :
    Expr.anyHidesFuture schema scope items = false ↔
      ∀ item ∈ items, item.hidesFuture schema scope = false := by
  induction items with
  | nil => simp [anyHidesFuture]
  | cons first rest ih => simp [anyHidesFuture, ih]

theorem Argument.anyHidesFuture_iff {arguments : List Argument} :
    Argument.anyHidesFuture schema scope arguments = false ↔
      ∀ argument ∈ arguments, argument.value.hidesFuture schema scope = false := by
  induction arguments with
  | nil => simp [anyHidesFuture]
  | cons first rest ih => cases first <;> simp [anyHidesFuture, Argument.value, ih]

theorem Expr.mentionsFuture_eq_false (expr : Expr) :
    ∀ scope : Scope, (expr.check schema false scope).diagnostics = [] →
      expr.hidesFuture schema scope = false → expr.mentionsFuture = false := by
  have parts := inherited_clean schema false
  induction expr using Expr.inductionOn with
  | literal | this | reference => exact fun _ _ _ => rfl
  | access object member span ih =>
    exact fun scope clean shown => ih scope (parts.object clean) shown
  | unary op operand span ih =>
    exact fun scope clean shown => ih scope (parts.operand clean) shown
  | binary op left right span leftIh rightIh =>
    intro scope clean shown
    simp only [hidesFuture, Bool.or_eq_false_iff] at shown
    rw [mentionsFuture, leftIh scope (parts.left clean) shown.1,
      rightIh scope (parts.right clean) shown.2]
    rfl
  | call function arguments span ih =>
    intro scope clean shown
    by_cases isAuth : function.name = "auth"
    · rw [mentionsFuture, if_pos isAuth]
    by_cases isFuture : function.name = "future"
    · -- The call itself is what the check reports.
      rw [check_future _ _ _ _ _ isFuture] at clean
      simp [Typing.updated, Typing.reportUnless, reportIf] at clean
    rw [hidesFuture, if_neg (by simp [isAuth, isFuture])] at shown
    rw [mentionsFuture, if_neg isAuth, if_neg isFuture]
    exact Argument.anyMentionsFuture_iff.2 fun argument found =>
      ih argument found scope (parts.argument isAuth isFuture found clean)
        (Argument.anyHidesFuture_iff.1 shown argument found)
  | list items span ih =>
    intro scope clean shown
    exact anyMentionsFuture_iff.2 fun item found =>
      ih item found scope (parts.item found clean) (anyHidesFuture_iff.1 shown item found)
  | quantified collection quantifier condition span collectionIh conditionIh =>
    intro scope clean shown
    rw [hidesFuture, Bool.or_eq_false_iff] at shown
    rw [mentionsFuture, collectionIh scope (parts.collection clean) shown.1, Bool.false_or]
    -- Either the condition was checked too, or what it holds counts as hidden.
    have inner := shown.2
    split at inner
    next model kind => exact conditionIh _ (parts.condition kind clean) inner
    next => exact inner

end

section

variable {lowering : LowerContext}

theorem Expr.hidesFuture_eq_false (expr : Expr) :
    ∀ (scope : Scope) (operand : Operand), expr.lowerWith lowering scope = .ok operand →
      expr.hidesFuture lowering.schema scope = false := by
  induction expr using Expr.inductionOn with
  | literal | this | reference => exact fun _ _ _ => rfl
  | access object member span ih =>
    intro scope operand lowered
    cases lowers_of_lowerWith lowered with
    | access objectLowered => exact ih scope _ objectLowered
  | unary op inner span ih =>
    intro scope operand lowered
    cases lowers_of_lowerWith lowered with
    | negate partLowered | not partLowered => exact ih scope _ partLowered
  | binary op left right span leftIh rightIh =>
    intro scope operand lowered
    cases lowers_of_lowerWith lowered with
    | arithmetic _ leftLowered rightLowered
    | comparison _ _ leftLowered rightLowered
    | logical _ _ leftLowered rightLowered =>
      rw [hidesFuture, leftIh scope _ leftLowered, rightIh scope _ rightLowered]
      rfl
  | call function arguments span ih =>
    intro scope operand lowered
    cases lowers_of_lowerWith lowered with
    | auth isAuth => rw [hidesFuture, if_pos (.inl isAuth)]
    | future isFuture => rw [hidesFuture, if_pos (.inr isFuture)]
    | call notAuth notFuture argumentsLowered =>
      rw [hidesFuture, if_neg (not_or.2 ⟨notAuth, notFuture⟩)]
      refine Argument.anyHidesFuture_iff.2 fun argument found => ?_
      rcases Argument.lowered_of_lowerAllWith argumentsLowered argument found with
        ⟨part, partLowered⟩
      exact ih argument found scope part partLowered
  | list items span ih =>
    intro scope operand lowered
    cases lowers_of_lowerWith lowered with
    | list itemsLowered =>
      refine anyHidesFuture_iff.2 fun item found => ?_
      rcases Expr.lowered_of_lowerAllWith itemsLowered item found with ⟨part, partLowered⟩
      exact ih item found scope part partLowered
  | quantified collection quantifier condition span collectionIh conditionIh =>
    intro scope operand lowered
    cases lowers_of_lowerWith lowered with
    | quantified element collectionLowered conditionLowered =>
      -- Lowering refuses elements of no model, which are those that the check passes over.
      have kind := Lower.elementModel_eq_ok element
      rw [hidesFuture, collectionIh scope _ collectionLowered, kind]
      exact conditionIh _ _ conditionLowered

end

theorem Lower.ignoresFuture_invariant :
    Lower.OperandInvariant (fun _ predicate => predicate.ignoresFuture = true)
      (fun _ operand => operand.ignoresFuture = true) where
  const _ _ := rfl
  asPredicate {_ operand} ignores := by cases operand <;> exact ignores
  negated _ predicate ignores := by cases predicate <;> exact ignores
  and := Predicate.allIgnoreFuture_iff.2
  comparison left right := by rw [Predicate.ignoresFuture, left, right]; rfl
  any collection predicate := by rw [Predicate.ignoresFuture, collection, predicate]; rfl
  member {_ object _ _} ignores read := by cases object <;> cases read <;> exact ignores
  or := Predicate.allIgnoreFuture_iff.2
  value _ _ := rfl
  field _ _ := rfl
  principal _ := rfl
  arithmetic _ left right := by rw [Operand.ignoresFuture, left, right]; rfl
  negate ignores := ignores
  list := Operand.allIgnoreFuture_iff.2
  predicate ignores := ignores
  mono ignores _ := ignores

structure LowerContext.IgnoresFuture (lowering : LowerContext) : Prop where
  arguments : ∀ operand ∈ lowering.arguments, operand.ignoresFuture = true
  inlines : ∀ name decl operands depth operand,
    Lower.inlinable? lowering.schema name = some decl →
    (∀ given ∈ operands, given.ignoresFuture = true) →
    lowering.inline decl operands depth = .ok operand → operand.ignoresFuture = true

section

variable {lowering : LowerContext}

theorem Expr.inherited_mentionsFuture {schema : Schema} :
    Inherited schema fun _ expr => expr.mentionsFuture = false where
  object absent := absent
  operand absent := absent
  left absent := (Bool.or_eq_false_iff.1 absent).1
  right absent := (Bool.or_eq_false_iff.1 absent).2
  argument notAuth notFuture given absent := by
    rw [mentionsFuture, if_neg notAuth, if_neg notFuture] at absent
    exact Argument.anyMentionsFuture_iff.1 absent _ given
  item listed absent := anyMentionsFuture_iff.1 absent _ listed
  collection absent := (Bool.or_eq_false_iff.1 absent).1
  condition _ absent := (Bool.or_eq_false_iff.1 absent).2

theorem Expr.ignoresFuture_lowerWith (ignores : lowering.IgnoresFuture) (expr : Expr)
    (scope : Scope) (operand : Operand) (absent : expr.mentionsFuture = false)
    (lowered : expr.lowerWith lowering scope = .ok operand) : operand.ignoresFuture = true := by
  refine Lower.ignoresFuture_invariant.of_lowerWith inherited_mentionsFuture ignores.arguments ?_ ?_
    expr scope operand absent lowered
  · intro _ _ _ _ isFuture absent
    simp [mentionsFuture, isFuture] at absent
  · intro _ function _ _ parts operand _ _ _ _ given called
    unfold Lower.call at called
    split at called
    next decl defined =>
      exact ignores.inlines function.name decl parts _ operand defined given called
    next =>
      cases called
      exact Operand.allIgnoreFuture_iff.2 given

end

section

variable {document : Document} {options : ValidationOptions}

theorem Lower.ignoresFuture_inlineInside (valid : (document.validate options).isValid = true)
    (fuel : Nat) :
    ∀ (inlined : List String) (base : Nat) (outer : List Operand),
      (∀ operand ∈ outer, operand.ignoresFuture = true) →
        (LowerContext.inside (.ofDocument document) fuel inlined base outer).IgnoresFuture := by
  induction fuel with
  | zero =>
    intro inlined base outer ignores
    refine ⟨ignores, fun name decl operands depth operand _ _ lowered => ?_⟩
    obtain ⟨_, rest, _, wrong, _⟩ := inlineInside_eq_ok.1 lowered
    cases wrong
  | succ fuel ih =>
    intro inlined base outer ignores
    refine ⟨ignores, fun name decl operands depth operand defined given lowered => ?_⟩
    obtain ⟨member, _, _⟩ := declared_of_inlinable? defined
    obtain ⟨_, rest, body, same, isBody, lowered⟩ := inlineInside_eq_ok.1 lowered
    cases same
    -- A body is checked in the scope in which it is lowered, without the right to use `future()`.
    have absent := body.mentionsFuture_eq_false _ (document.check_body valid member isBody)
      (body.hidesFuture_eq_false _ operand lowered)
    exact body.ignoresFuture_lowerWith (ih _ _ operands given) _ operand absent lowered

theorem Expr.ignoresFuture_lower (valid : (document.validate options).isValid = true)
    {expr : Expr} {scope : Scope} {predicate : Predicate} (absent : expr.mentionsFuture = false)
    (lowered : expr.lower (.ofDocument document) scope = .ok predicate) :
    predicate.ignoresFuture = true := by
  obtain ⟨operand, operandLowered, lowered⟩ := Except.bind_eq_ok.1 lowered
  cases lowered
  have ignores := Lower.ignoresFuture_inlineInside valid
    ((Schema.ofDocument document).symbols.symbols.length + 1) [] 0 [] (by simp)
  exact Lower.ignoresFuture_invariant.of_expr 0 expr
    (expr.ignoresFuture_lowerWith ignores scope operand absent operandLowered)

theorem Expr.mentionsFuture_of_lower {schema : Schema} {expr : Expr} {scope : Scope}
    {predicate : Predicate} (clean : (expr.check schema false scope).diagnostics = [])
    (lowered : expr.lower schema scope = .ok predicate) : expr.mentionsFuture = false := by
  obtain ⟨operand, operandLowered, _⟩ := Except.bind_eq_ok.1 lowered
  exact expr.mentionsFuture_eq_false scope clean
    (expr.hidesFuture_eq_false scope operand operandLowered)

end

end Schemata
