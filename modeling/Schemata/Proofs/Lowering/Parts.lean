import Schemata.Predicate.Lower
import Schemata.Proofs.Lowering.Interpreter
import Schemata.Proofs.Predicate.Induction
import Schemata.Proofs.Result

set_option autoImplicit false

namespace Schemata

section

variable {lowering : LowerContext} {scope : Scope}

theorem Expr.lowered_of_lowerAllWith {items : List Expr} :
    ∀ {operands : List Operand}, Expr.lowerAllWith lowering scope items = .ok operands →
      ∀ item ∈ items, ∃ operand, item.lowerWith lowering scope = .ok operand := by
  induction items with
  | nil => exact fun _ _ found => nomatch found
  | cons item rest ih =>
    intro operands lowered
    obtain ⟨first, firstLowered, lowered⟩ := Except.bind_eq_ok.1 lowered
    obtain ⟨others, othersLowered, _⟩ := Except.bind_eq_ok.1 lowered
    exact List.forall_mem_cons.2 ⟨⟨first, firstLowered⟩, ih othersLowered⟩

theorem Argument.lowered_of_lowerAllWith {arguments : List Argument} :
    ∀ {operands : List Operand}, Argument.lowerAllWith lowering scope arguments = .ok operands →
      ∀ argument ∈ arguments, ∃ operand, argument.value.lowerWith lowering scope = .ok operand := by
  induction arguments with
  | nil => exact fun _ _ found => nomatch found
  | cons argument rest ih =>
    intro operands lowered
    cases argument with
    | positional value | named name value =>
      obtain ⟨first, firstLowered, lowered⟩ := Except.bind_eq_ok.1 lowered
      obtain ⟨others, othersLowered, _⟩ := Except.bind_eq_ok.1 lowered
      exact List.forall_mem_cons.2 ⟨⟨first, firstLowered⟩, ih othersLowered⟩

theorem Expr.source_of_lowerAllWith {items : List Expr} :
    ∀ {operands : List Operand}, Expr.lowerAllWith lowering scope items = .ok operands →
      ∀ operand ∈ operands, ∃ item ∈ items, item.lowerWith lowering scope = .ok operand := by
  induction items with
  | nil =>
    intro operands lowered
    cases lowered
    exact nofun
  | cons item rest ih =>
    intro operands lowered
    rcases Except.bind_eq_ok.1 lowered with ⟨first, firstLowered, lowered⟩
    rcases Except.bind_eq_ok.1 lowered with ⟨others, othersLowered, lowered⟩
    cases lowered
    refine List.forall_mem_cons.2 ⟨⟨item, List.mem_cons_self, firstLowered⟩, ?_⟩
    intro operand found
    rcases ih othersLowered operand found with ⟨source, listed, known⟩
    exact ⟨source, List.mem_cons_of_mem _ listed, known⟩

theorem Argument.source_of_lowerAllWith {arguments : List Argument} :
    ∀ {operands : List Operand}, Argument.lowerAllWith lowering scope arguments = .ok operands →
      ∀ operand ∈ operands, ∃ argument ∈ arguments,
        argument.value.lowerWith lowering scope = .ok operand := by
  induction arguments with
  | nil =>
    intro operands lowered
    cases lowered
    exact nofun
  | cons argument rest ih =>
    intro operands lowered
    cases argument with
    | positional value | named name value =>
      rcases Except.bind_eq_ok.1 lowered with ⟨first, firstLowered, lowered⟩
      rcases Except.bind_eq_ok.1 lowered with ⟨others, othersLowered, lowered⟩
      cases lowered
      refine List.forall_mem_cons.2 ⟨⟨_, List.mem_cons_self, firstLowered⟩, ?_⟩
      intro operand found
      rcases ih othersLowered operand found with ⟨source, listed, known⟩
      exact ⟨source, List.mem_cons_of_mem _ listed, known⟩

theorem Argument.length_of_lowerAllWith {arguments : List Argument} :
    ∀ {operands : List Operand}, Argument.lowerAllWith lowering scope arguments = .ok operands →
      operands.length = arguments.length := by
  induction arguments with
  | nil =>
    intro operands lowered
    cases lowered
    rfl
  | cons argument rest ih =>
    intro operands lowered
    cases argument with
    | positional value | named name value =>
      obtain ⟨first, _, lowered⟩ := Except.bind_eq_ok.1 lowered
      obtain ⟨others, othersLowered, lowered⟩ := Except.bind_eq_ok.1 lowered
      cases lowered
      rw [List.length_cons, List.length_cons, ih othersLowered]

theorem Expr.failsOnly_lowerAllWith {expected : LowerError → Prop} {items : List Expr}
    (each : ∀ item ∈ items, FailsOnly expected (item.lowerWith lowering scope)) :
    FailsOnly expected (Expr.lowerAllWith lowering scope items) := by
  induction items with
  | nil => exact .ok _
  | cons item rest ih =>
    have split := List.forall_mem_cons.1 each
    exact split.1.bind fun first _ => (ih split.2).bind fun others _ => .ok _

theorem Argument.failsOnly_lowerAllWith {expected : LowerError → Prop} {arguments : List Argument}
    (each : ∀ argument ∈ arguments, FailsOnly expected (argument.value.lowerWith lowering scope)) :
    FailsOnly expected (Argument.lowerAllWith lowering scope arguments) := by
  induction arguments with
  | nil => exact .ok _
  | cons argument rest ih =>
    have split := List.forall_mem_cons.1 each
    cases argument with
    | positional value | named name value =>
      exact split.1.bind fun first _ => (ih split.2).bind fun others _ => .ok _

end

namespace Lower

variable {expected : LowerError → Prop}

theorem failsOnly_literal (isExpected : ∀ text, expected (.invalidNumber text)) (value : Literal) :
    FailsOnly expected (literal value) := by
  cases value with
  | number text =>
    rw [literal, number]
    split
    · exact .ok _
    · split
      · exact .ok _
      · exact .ofError (isExpected text)
  | _ => exact .ok _

theorem failsOnly_access (isExpected : ∀ name, expected (.invalidMemberAccess name))
    (object : Operand) (name : String) : FailsOnly expected (access object name) := by
  unfold access
  split
  · exact .ok _
  · exact .ofError (isExpected name)

theorem failsOnly_compareMembers (isExpected : ∀ name, expected (.invalidMemberAccess name))
    (left right : Operand) (fields : List Field) :
    FailsOnly expected (compareMembers left right fields) := by
  induction fields with
  | nil => exact .ok _
  | cons field rest ih =>
    refine .bind ?_ fun first _ => .bind ih fun others _ => .ok _
    exact .bind (failsOnly_access isExpected _ _) fun first _ =>
      .bind (failsOnly_access isExpected _ _) fun second _ => .ok _

theorem failsOnly_compare (noMember : ∀ name, expected (.invalidMemberAccess name))
    (noIdentity : ∀ model, expected (.noIdentity model)) (schema : Schema) (op : Comparison)
    (model? : Option Model) (left right : Operand) :
    FailsOnly expected (compare schema op model? left right) := by
  unfold compare
  split
  · unfold compareRecords
    split
    · exact .ofError (noIdentity _)
    · exact .bind (failsOnly_compareMembers noMember _ _ _) fun comparisons _ => .ok _
  · exact .ok _

theorem failsOnly_elementModel (isExpected : expected .invalidCollection) (schema : Schema)
    (scope : Scope) (collection : Expr) :
    FailsOnly expected (elementModel schema scope collection) := by
  unfold elementModel
  split
  · exact .ok _
  · exact .ofError isExpected

end Lower

theorem Lower.elementModel_eq_ok {schema : Schema} {scope : Scope} {collection : Expr}
    {model : Model} (found : Lower.elementModel schema scope collection = .ok model) :
    (collection.typeIn schema scope).kind = .model model := by
  unfold Lower.elementModel at found
  split at found
  next kind =>
    cases found
    exact kind
  next => cases found

inductive Expr.Lowers (lowering : LowerContext) (scope : Scope) : Expr → Operand → Prop
  | literal {value : Literal} {span : Span} {json : Json}
      (isJson : Lower.literal value = .ok json) :
      Lowers lowering scope (.literal value span) (.value json)
  | this {span : Span} {operand : Operand} (read : Lower.this lowering scope = .ok operand) :
      Lowers lowering scope (.this span) operand
  | reference {name : Ident} {span : Span} {operand : Operand}
      (read : Lower.reference lowering scope name.name = .ok operand) :
      Lowers lowering scope (.reference name span) operand
  | access {object : Expr} {member : Ident} {span : Span} {inner operand : Operand}
      (objectLowered : object.lowerWith lowering scope = .ok inner)
      (read : Lower.access inner member.name = .ok operand) :
      Lowers lowering scope (.access object member span) operand
  | negate {inner : Expr} {span : Span} {part : Operand}
      (partLowered : inner.lowerWith lowering scope = .ok part) :
      Lowers lowering scope (.unary .negate inner span) (.negate part)
  | not {inner : Expr} {span : Span} {part : Operand}
      (partLowered : inner.lowerWith lowering scope = .ok part) :
      Lowers lowering scope (.unary .not inner span)
        (.predicate (Lower.asPredicate inner part).negated)
  | arithmetic {op : BinaryOp} {left right : Expr} {span : Span} {kind : Arithmetic}
      {first second : Operand} (isArithmetic : op.arithmetic? = some kind)
      (leftLowered : left.lowerWith lowering scope = .ok first)
      (rightLowered : right.lowerWith lowering scope = .ok second) :
      Lowers lowering scope (.binary op left right span) (.arithmetic kind first second)
  | comparison {op : BinaryOp} {left right : Expr} {span : Span} {kind : Comparison}
      {first second : Operand} {predicate : Predicate} (notArithmetic : op.arithmetic? = none)
      (isComparison : op.comparison? = some kind)
      (leftLowered : left.lowerWith lowering scope = .ok first)
      (rightLowered : right.lowerWith lowering scope = .ok second)
      (compared : Lower.compare lowering.schema kind
        (Lower.comparedModel? lowering.schema scope kind left right) first second =
          .ok predicate) :
      Lowers lowering scope (.binary op left right span) (.predicate predicate)
  | logical {op : BinaryOp} {left right : Expr} {span : Span} {first second : Operand}
      (notArithmetic : op.arithmetic? = none) (notComparison : op.comparison? = none)
      (leftLowered : left.lowerWith lowering scope = .ok first)
      (rightLowered : right.lowerWith lowering scope = .ok second) :
      Lowers lowering scope (.binary op left right span)
        (.predicate
          (if op = .and then .and [Lower.asPredicate left first, Lower.asPredicate right second]
          else .or [Lower.asPredicate left first, Lower.asPredicate right second]))
  | auth {function : Ident} {arguments : List Argument} {span : Span}
      (isAuth : function.name = "auth") :
      Lowers lowering scope (.call function arguments span) (.principal [])
  | future {function : Ident} {arguments : List Argument} {span : Span}
      (isFuture : function.name = "future") :
      Lowers lowering scope (.call function arguments span) (.future [])
  | call {function : Ident} {arguments : List Argument} {span : Span} {operands : List Operand}
      {operand : Operand} (notAuth : function.name ≠ "auth")
      (notFuture : function.name ≠ "future")
      (argumentsLowered : Argument.lowerAllWith lowering scope arguments = .ok operands)
      (called : Lower.call lowering scope function.name operands = .ok operand) :
      Lowers lowering scope (.call function arguments span) operand
  | list {items : List Expr} {span : Span} {operands : List Operand}
      (itemsLowered : Expr.lowerAllWith lowering scope items = .ok operands) :
      Lowers lowering scope (.list items span) (.list operands)
  | quantified {collection condition : Expr} {quantifier : Quantifier} {span : Span}
      {model : Model} {items inner : Operand}
      (element : Lower.elementModel lowering.schema scope collection = .ok model)
      (collectionLowered : collection.lowerWith lowering scope = .ok items)
      (conditionLowered : condition.lowerWith lowering (.element model :: scope) = .ok inner) :
      Lowers lowering scope (.quantified collection quantifier condition span)
        (.predicate (Lower.quantify quantifier items (Lower.asPredicate condition inner)))

theorem Expr.lowers_of_lowerWith {lowering : LowerContext} {scope : Scope} {expr : Expr}
    {operand : Operand} (lowered : expr.lowerWith lowering scope = .ok operand) :
    expr.Lowers lowering scope operand := by
  -- Each form is lowered by the steps of its own constructor, which are taken apart one by one.
  cases expr with
  | literal value span =>
    rcases Except.map_eq_ok.1 lowered with ⟨json, isJson, rfl⟩
    exact .literal isJson
  | this span => exact .this lowered
  | reference name span => exact .reference lowered
  | access object member span =>
    rcases Except.bind_eq_ok.1 lowered with ⟨inner, objectLowered, read⟩
    exact .access objectLowered read
  | unary op inner span =>
    cases op with
    | negate =>
      rcases Except.bind_eq_ok.1 lowered with ⟨part, partLowered, lowered⟩
      cases lowered
      exact .negate partLowered
    | not =>
      rcases Except.bind_eq_ok.1 lowered with ⟨part, partLowered, lowered⟩
      cases lowered
      exact .not partLowered
  | binary op left right span =>
    rw [lowerWith] at lowered
    cases isArithmetic : op.arithmetic? with
    | some kind =>
      rw [isArithmetic] at lowered
      rcases Except.bind_eq_ok.1 lowered with ⟨first, leftLowered, lowered⟩
      rcases Except.bind_eq_ok.1 lowered with ⟨second, rightLowered, lowered⟩
      cases lowered
      exact .arithmetic isArithmetic leftLowered rightLowered
    | none =>
      cases isComparison : op.comparison? with
      | some kind =>
        rw [isArithmetic, isComparison] at lowered
        rcases Except.bind_eq_ok.1 lowered with ⟨first, leftLowered, lowered⟩
        rcases Except.bind_eq_ok.1 lowered with ⟨second, rightLowered, lowered⟩
        rcases Except.bind_eq_ok.1 lowered with ⟨predicate, compared, lowered⟩
        cases lowered
        exact .comparison isArithmetic isComparison leftLowered rightLowered compared
      | none =>
        rw [isArithmetic, isComparison] at lowered
        rcases Except.bind_eq_ok.1 lowered with ⟨first, leftLowered, lowered⟩
        rcases Except.bind_eq_ok.1 lowered with ⟨second, rightLowered, lowered⟩
        cases lowered
        exact .logical isArithmetic isComparison leftLowered rightLowered
  | call function arguments span =>
    by_cases isAuth : function.name = "auth"
    next =>
      rw [lowerWith_auth _ _ _ _ isAuth] at lowered
      cases lowered
      exact .auth isAuth
    next =>
      by_cases isFuture : function.name = "future"
      next =>
        rw [lowerWith_future _ _ _ _ isFuture] at lowered
        cases lowered
        exact .future isFuture
      next =>
        rw [lowerWith_call _ _ _ _ isAuth isFuture] at lowered
        rcases Except.bind_eq_ok.1 lowered with ⟨operands, argumentsLowered, called⟩
        exact .call isAuth isFuture argumentsLowered called
  | list items span =>
    rcases Except.bind_eq_ok.1 lowered with ⟨operands, itemsLowered, lowered⟩
    cases lowered
    exact .list itemsLowered
  | quantified collection quantifier condition span =>
    rcases Except.bind_eq_ok.1 lowered with ⟨model, element, lowered⟩
    rcases Except.bind_eq_ok.1 lowered with ⟨items, collectionLowered, lowered⟩
    rcases Except.bind_eq_ok.1 lowered with ⟨inner, conditionLowered, lowered⟩
    cases lowered
    exact .quantified element collectionLowered conditionLowered

theorem Expr.failsOnly_binary {lowering : LowerContext} {scope : Scope} {op : BinaryOp}
    {left right : Expr} {span : Span} {expected : LowerError → Prop}
    (head : FailsOnly expected (left.lowerWith lowering scope))
    (tail : FailsOnly expected (right.lowerWith lowering scope))
    (compares : ∀ comparison, op.comparison? = some comparison → ∀ first second,
      left.lowerWith lowering scope = .ok first → right.lowerWith lowering scope = .ok second →
        FailsOnly expected (Lower.compare lowering.schema comparison
          (Lower.comparedModel? lowering.schema scope comparison left right) first second)) :
    FailsOnly expected ((Expr.binary op left right span).lowerWith lowering scope) := by
  rw [lowerWith]
  split
  next => exact head.bind fun _ _ => tail.bind fun _ _ => .ok _
  next comparison _ isComparison =>
    exact head.bind fun first leftLowered => tail.bind fun second rightLowered =>
      (compares comparison isComparison first second leftLowered rightLowered).bind fun _ _ =>
        .ok _
  next => exact head.bind fun _ _ => tail.bind fun _ _ => .ok _

namespace Json

theorem walk_singleton (value : Json) (name : String) :
    value.walk [name] = value.memberOrNull name := by
  simp only [walk, memberOrNull]
  cases value.member? name <;> rfl

@[simp] theorem walk_null (path : List String) : Json.null.walk path = .null := by
  cases path <;> rfl

theorem walk_append (value : Json) (path rest : List String) :
    value.walk (path ++ rest) = (value.walk path).walk rest := by
  induction path generalizing value with
  | nil => rfl
  | cons name path ih =>
    simp only [List.cons_append, walk]
    cases value.member? name with
    | none => simp
    | some next => exact ih next

end Json

section

variable (context : EvalContext) (scopes : List Json)

theorem Operand.evalIn_member? {operand lowered : Operand} {name : String}
    (read : operand.member? name = some lowered) :
    lowered.evalIn context scopes =
      (operand.evalIn context scopes).map fun value => value.memberOrNull name := by
  -- Only paths have members, and a member prolongs the path.
  cases operand with
  | field scope path =>
    cases read
    simp only [evalIn, EvalContext.readField]
    cases scopes[scope]? with
    | none => rfl
    | some value => simp [Except.map, Json.walk_append, Json.walk_singleton]
  | principal path =>
    cases read
    simp only [evalIn, EvalContext.readPrincipal]
    cases context.principal with
    | none => rfl
    | some value => simp [Except.map, Json.walk_append, Json.walk_singleton]
  | future path =>
    cases read
    simp [evalIn, EvalContext.readFuture, Except.map, Json.walk_append, Json.walk_singleton]
  | value | arithmetic | negate | list | call | predicate => simp [member?] at read

theorem Operand.evalIn_asPredicate (operand : Operand) :
    operand.asPredicate.evalIn context scopes =
      (operand.evalIn context scopes).map Json.isTrue := by
  -- A predicate as an operand is the predicate itself; all others are tested for truth.
  cases operand with
  | predicate stated =>
    simp only [asPredicate, evalIn]
    cases stated.evalIn context scopes <;> rfl
  | _ =>
    simp only [asPredicate, Predicate.evalIn]
    generalize Operand.evalIn context scopes _ = result
    cases result <;> rfl

theorem Lower.evalIn_asPredicate {lowering : LowerContext} {scope : Scope} {expr : Expr}
    {operand : Operand} (lowered : expr.lowerWith lowering scope = .ok operand) :
    (Lower.asPredicate expr operand).evalIn context scopes =
      (operand.evalIn context scopes).map Json.isTrue := by
  unfold Lower.asPredicate
  split
  · cases lowered
    rfl
  · exact Operand.evalIn_asPredicate context scopes operand

theorem not_anyM_not (test : Json → Except EvalError Bool) (items : List Json) :
    (items.anyM fun item => (test item).map fun value => !value).map (fun value => !value) =
      items.allM test := by
  induction items with
  | nil => rfl
  | cons first rest ih =>
    rw [List.anyM, List.allM, ← ih]
    -- Both stop at an error and at the first item that fails the test.
    cases test first with
    | error error => rfl
    | ok value => cases value <;> rfl

theorem Lower.evalIn_quantify (quantifier : Quantifier) (collection : Operand)
    (condition : Predicate) :
    (Lower.quantify quantifier collection condition).evalIn context scopes =
      (collection.evalIn context scopes).bind fun value =>
        quantifier.holds (fun item => condition.evalIn context (scopes ++ [item]))
          value.elements := by
  cases quantifier with
  | any => simp only [quantify, Predicate.evalIn, Quantifier.holds]; rfl
  | all =>
    simp only [quantify, Predicate.evalIn_negated, Predicate.evalIn, Quantifier.holds]
    -- There is no form for `all`: all items hold if not any of them fails.
    cases collection.evalIn context scopes with
    | error error => rfl
    | ok value => exact not_anyM_not _ _
  | none =>
    simp only [quantify, Predicate.evalIn_negated, Predicate.evalIn, Quantifier.holds]
    cases collection.evalIn context scopes <;> rfl

def Schema.agree (schema : Schema) (model : Model) (left right : Json) : Bool :=
  (schema.idFields model).all fun field =>
    (left.memberOrNull field.name.name).equal (right.memberOrNull field.name.name)

theorem Predicate.evalIn_ofComparisons (parts : List Predicate) :
    (Predicate.ofComparisons parts).evalIn context scopes =
      Predicate.evalAll context scopes parts := by
  unfold ofComparisons
  split
  next only =>
    simp only [evalAll]
    cases only.evalIn context scopes with
    | error error => rfl
    | ok value => cases value <;> rfl
  next => simp only [evalIn]

namespace Lower

variable {left right : Operand}

theorem evalIn_access {object lowered : Operand} {name : String}
    (read : access object name = .ok lowered) :
    lowered.evalIn context scopes =
      (object.evalIn context scopes).map fun value => value.memberOrNull name := by
  apply Operand.evalIn_member?
  unfold access at read
  split at read <;> simp_all

theorem evalIn_compareMember {name : String} {predicate : Predicate}
    (lowered : compareMember left right name = .ok predicate) :
    predicate.evalIn context scopes =
      (left.evalIn context scopes).bind fun first =>
        (right.evalIn context scopes).map fun second =>
          (first.memberOrNull name).equal (second.memberOrNull name) := by
  obtain ⟨first, firstRead, lowered⟩ := Except.bind_eq_ok.1 lowered
  obtain ⟨second, secondRead, lowered⟩ := Except.bind_eq_ok.1 lowered
  cases lowered
  simp only [Predicate.evalIn, evalIn_access context scopes firstRead,
    evalIn_access context scopes secondRead]
  cases left.evalIn context scopes with
  | error error => rfl
  | ok first => cases right.evalIn context scopes <;> rfl

theorem evalAll_compareMembers {first second : Json} {fields : List Field}
    {predicates : List Predicate} (leftValue : left.evalIn context scopes = .ok first)
    (rightValue : right.evalIn context scopes = .ok second)
    (lowered : compareMembers left right fields = .ok predicates) :
    Predicate.evalAll context scopes predicates =
      .ok (fields.all fun field =>
        (first.memberOrNull field.name.name).equal (second.memberOrNull field.name.name)) := by
  induction fields generalizing predicates with
  | nil =>
    cases lowered
    simp [Predicate.evalAll]
  | cons field rest ih =>
    obtain ⟨predicate, head, lowered⟩ := Except.bind_eq_ok.1 lowered
    obtain ⟨others, tail, lowered⟩ := Except.bind_eq_ok.1 lowered
    cases lowered
    have answer : predicate.evalIn context scopes =
        .ok ((first.memberOrNull field.name.name).equal (second.memberOrNull field.name.name)) := by
      rw [evalIn_compareMember context scopes head, leftValue, rightValue]
      rfl
    rw [Predicate.evalAll, ih tail, answer, List.all_cons]
    cases (first.memberOrNull field.name.name).equal (second.memberOrNull field.name.name) <;> rfl

theorem evalIn_ofComparisons {schema : Schema} {model : Model} {field : Field} {rest : List Field}
    {comparisons : List Predicate} (fields : schema.idFields model = field :: rest)
    (lowered : compareMembers left right (field :: rest) = .ok comparisons) :
    (Predicate.ofComparisons comparisons).evalIn context scopes =
      (left.evalIn context scopes).bind fun first =>
        (right.evalIn context scopes).map (schema.agree model first) := by
  have members := lowered
  obtain ⟨predicate, head, lowered⟩ := Except.bind_eq_ok.1 lowered
  obtain ⟨others, tail, lowered⟩ := Except.bind_eq_ok.1 lowered
  cases lowered
  -- An error of a side is met by the comparison of the first field. Without one, both sides have
  -- values, and the comparisons of the fields after the first one cannot fail.
  rw [Predicate.evalIn_ofComparisons]
  cases leftValue : left.evalIn context scopes with
  | error error =>
    rw [Predicate.evalAll, evalIn_compareMember context scopes head, leftValue]
    rfl
  | ok first =>
    cases rightValue : right.evalIn context scopes with
    | error error =>
      rw [Predicate.evalAll, evalIn_compareMember context scopes head, leftValue, rightValue]
      rfl
    | ok second =>
      rw [evalAll_compareMembers context scopes leftValue rightValue members, ← fields]
      rfl

theorem evalIn_compareRecords {schema : Schema} {op : Comparison} {model : Model}
    {predicate : Predicate} (lowered : compareRecords schema op model left right = .ok predicate) :
    predicate.evalIn context scopes =
      (left.evalIn context scopes).bind fun first =>
        (right.evalIn context scopes).map fun second =>
          if op = .eq then schema.agree model first second
          else !schema.agree model first second := by
  unfold compareRecords at lowered
  split at lowered
  · simp at lowered
  next fields nonempty =>
    obtain ⟨field, rest, shape⟩ := List.exists_cons_of_ne_nil nonempty
    obtain ⟨comparisons, members, lowered⟩ := Except.bind_eq_ok.1 lowered
    rw [shape] at members
    have same := evalIn_ofComparisons context scopes shape members
    cases lowered
    split
    · exact same
    · rw [Predicate.evalIn_negated, same]
      cases left.evalIn context scopes with
      | error error => rfl
      | ok first => cases right.evalIn context scopes <;> rfl

end Lower

end

end Schemata
