import Schemata.Proofs.Lowering.Progress
import Schemata.Proofs.Lowering.Tests
import Schemata.Proofs.Typing.Values

set_option autoImplicit false

namespace Schemata

def Layer.Fits (schema : Schema) : Layer → Prop
  | .record model value | .element model value => (ValueType.model model).Admits schema value
  | .function _ _ => False

theorem Scope.record?_element (model : Model) (scope : Scope) :
    Scope.record? (.element model :: scope) = scope.record? := by
  cases outer : scope.record? <;> simp [Scope.record?, outer]

theorem Layer.Fits.admits_field {schema : Schema} {stack : Stack} {name : String}
    {frame place : Nat} {model : Model} {field : Field}
    (fits : ∀ layer ∈ stack, layer.Fits schema)
    (found : stack.scope.lookup? schema name = some (.field frame place model field)) :
    (schema.valueTypeOf field).Admits schema
      ((stack.valueAt frame).memberOrNull field.name.name) := by
  induction stack with
  | nil => simp [Stack.scope, Scope.lookup?] at found
  | cons layer outer ih =>
    rw [Stack.scope_cons] at found
    rw [List.forall_mem_cons] at fits
    rcases Scope.lookup?_cons_cases found with here | outside
    next =>
      cases layer with
      | function => cases fits.1
      | record own value | element own value =>
        simp only [Layer.frame, Scope.lookupIn?, Option.map_eq_some_iff] at here
        rcases here with ⟨visible, known, same⟩
        cases same
        have named : visible.name = name := by simpa using List.find?_some known
        have member : (schema.valueTypeOf visible.field).Admits schema (value.memberOrNull name) :=
          ValueType.Admits.memberOrNull fits.1 known
        rw [← named] at member
        simpa [Stack.valueAt, Stack.layerAt?, Layer.value?, VisibleField.name] using member
    next =>
      have below : frame < outer.length := by simpa using Scope.frame_lt_of_lookup? outside rfl
      rw [Stack.valueAt, Stack.layerAt?_cons_of_lt below]
      exact ih fits.2 outside

structure Stack.Fits (schema : Schema) (context : EvalContext) (stack : Stack) : Prop where
  layers : ∀ layer ∈ stack, layer.Fits schema
  updated : ∀ model, stack.scope.record? = some model →
    (ValueType.model model).Admits schema (context.readFuture [])
  principal : ∀ model, schema.principal? = some model →
    (ValueType.model model).Admits schema (context.readPrincipal [])

namespace Stack.Fits

variable {schema : Schema} {context : EvalContext} {stack : Stack} {model : Model}

theorem ofRecord (conforms : context.Conforms schema model) :
    Stack.Fits schema context [.record model context.record] := by
  refine ⟨List.forall_mem_singleton.2 conforms.record, fun record same => ?_, fun user known => ?_⟩
  · cases same
    cases given : context.future with
    | none => simpa [EvalContext.readFuture, given, Json.walk] using conforms.record
    | some value =>
      simpa [EvalContext.readFuture, given, Json.walk] using conforms.future value given
  · cases given : context.principal with
    | none =>
      left
      simp [EvalContext.readPrincipal, given]
    | some value =>
      simpa [EvalContext.readPrincipal, given, Json.walk] using
        conforms.principal value user given known

theorem push (fits : stack.Fits schema context) {value : Json}
    (admits : (ValueType.model model).Admits schema value) :
    Stack.Fits schema context (.element model value :: stack) := by
  refine ⟨List.forall_mem_cons.2 ⟨admits, fits.layers⟩, fun record same => ?_, fits.principal⟩
  -- An element is not the record that a rule is about.
  rw [Stack.scope_cons, Layer.frame, Scope.record?_element] at same
  exact fits.updated record same

theorem this (fits : stack.Fits schema context) {frame place : Nat}
    (found : stack.scope.this? = some (frame, place, model)) :
    (ValueType.model model).Admits schema stack.this := by
  cases stack with
  | nil => cases found
  | cons layer outer =>
    have here := fits.layers layer List.mem_cons_self
    cases layer with
    | function => cases here
    | record | element =>
      cases found
      exact here

theorem carriesValues (fits : stack.Fits schema context) : stack.scope.CarriesValues := by
  intro frame found
  rcases List.mem_map.1 found with ⟨layer, listed, rfl⟩
  have here := fits.layers layer listed
  cases layer with
  | function => cases here
  | record | element => rfl

end Stack.Fits

theorem ValueType.admits_predicate {schema : Schema} {context : EvalContext} {scopes : List Json}
    {predicate : Predicate} {value : Json}
    (evaluated : (Operand.predicate predicate).evalIn context scopes = .ok value) :
    ValueType.boolean.Admits schema value := by
  rcases Except.bind_eq_ok.1 evaluated with ⟨truth, _, same⟩
  cases same
  exact admits_bool

theorem Operand.evalIn_field {schema : Schema} {context : EvalContext} {stack : Stack}
    {name : String} {frame place : Nat} {model : Model} {field : Field}
    (found : stack.scope.lookup? schema name = some (.field frame place model field)) :
    (Operand.field place [field.name.name]).evalIn context stack.values =
      .ok ((stack.valueAt frame).memberOrNull field.name.name) := by
  rw [evalIn, EvalContext.readField, Stack.getElem?_values_of_lookup? found]
  exact congrArg Except.ok (Json.walk_singleton _ _)

namespace Expr.Typed

variable {lowering : LowerContext} {context : EvalContext}

theorem isPredicate_of_binary {op : BinaryOp} {left right : Expr} {span : Span} {scope : Scope}
    {operand : Operand} (notArithmetic : op.arithmetic? = none)
    (lowered : (Expr.binary op left right span).lowerWith lowering scope = .ok operand) :
    ∃ predicate, operand = .predicate predicate := by
  cases lowers_of_lowerWith lowered with
  | arithmetic isArithmetic =>
    rw [notArithmetic] at isArithmetic
    cases isArithmetic
  | comparison | logical => exact ⟨_, rfl⟩

theorem call_of_lowerWith (resolved : lowering.schema.IsResolved) {function : Ident}
    {arguments : List Argument} {span : Span} {scope : Scope} {operand : Operand}
    {decl : FunctionDecl} {kind : Scalar} (notAuth : function.name ≠ "auth")
    (notFuture : function.name ≠ "future") (gives : Library.GivesScalar function.name decl kind)
    (lowered : (Expr.call function arguments span).lowerWith lowering scope = .ok operand) :
    ∃ operands, Argument.lowerAllWith lowering scope arguments = .ok operands ∧
      operand = .call function.name operands := by
  cases lowers_of_lowerWith lowered with
  | auth isAuth => exact absurd isAuth notAuth
  | future isFuture => exact absurd isFuture notFuture
  | call _ _ argumentsLowered called =>
    rw [Lower.call, resolved.inlinable? gives] at called
    cases called
    exact ⟨_, argumentsLowered, rfl⟩

theorem admits (resolved : lowering.schema.IsResolved) (base : lowering.base = 0) {scope : Scope}
    {expr : Expr} {type : ValueType} (typed : expr.Typed lowering.schema scope type) :
    ∀ (stack : Stack) (operand : Operand) (value : Json), stack.scope = scope →
      stack.Fits lowering.schema context → expr.lowerWith lowering scope = .ok operand →
      operand.evalIn context stack.values = .ok value → type.Admits lowering.schema value := by
  -- By the rules for types. Only paths carry values of the schema through, and for these the
  -- records on the stack fit; what is computed is of its type whatever it is computed from.
  induction typed with
  | literal =>
    intro stack operand value _ _ lowered evaluated
    cases lowers_of_lowerWith lowered with
    | literal isJson =>
      cases evaluated
      exact ValueType.admits_literal isJson
  | this found =>
    rintro stack operand value rfl fits lowered evaluated
    have read : operand.evalIn context ([] ++ stack.values) = .ok stack.this :=
      Lower.evalIn_this base.symm lowered
    cases read.symm.trans evaluated
    exact fits.this found
  | field found =>
    rintro stack operand value rfl fits lowered evaluated
    rw [lowerWith, Lower.reference, found] at lowered
    cases lowered
    rw [base, Nat.zero_add] at evaluated
    cases (Operand.evalIn_field found).symm.trans evaluated
    exact Layer.Fits.admits_field fits.layers found
  | enumMember found =>
    intro stack operand value _ _ lowered evaluated
    rw [lowerWith, Lower.reference, found] at lowered
    cases lowered
    cases evaluated
    exact .inr (.enum _ _)
  | access _ found _ ih =>
    intro stack operand value same fits lowered evaluated
    cases lowers_of_lowerWith lowered with
    | access objectLowered read =>
      rw [Lower.evalIn_access context stack.values read] at evaluated
      rcases Except.map_eq_ok.1 evaluated with ⟨record, recordEvaluated, rfl⟩
      exact (ih stack _ record same fits objectLowered recordEvaluated).memberOrNull found
  | not =>
    intro stack operand value _ _ lowered evaluated
    cases lowers_of_lowerWith lowered
    exact ValueType.admits_predicate evaluated
  | negate _ numeric ih =>
    intro stack operand value _ _ lowered evaluated
    cases lowers_of_lowerWith lowered
    rcases Except.bind_eq_ok.1 evaluated with ⟨number, _, same⟩
    cases same
    exact ValueType.admits_negate numeric number
  | @logical _ op _ _ _ isLogical =>
    intro stack operand value _ _ lowered evaluated
    have notArithmetic : op.arithmetic? = none := by cases op <;> cases isLogical <;> rfl
    rcases isPredicate_of_binary notArithmetic lowered with ⟨predicate, rfl⟩
    exact ValueType.admits_predicate evaluated
  | @arithmetic _ op _ _ _ _ _ result isArithmetic _ _ numeric otherNumeric gives =>
    intro stack operand value _ _ lowered evaluated
    cases lowers_of_lowerWith lowered with
    | @arithmetic _ _ _ _ arithmetic =>
      rcases Except.bind_eq_ok.1 evaluated with ⟨left, _, evaluated⟩
      rcases Except.bind_eq_ok.1 evaluated with ⟨right, _, same⟩
      cases same
      rcases Typing.arithmetic_of_numeric numeric otherNumeric with ⟨kind, isNumeric, given⟩
      rw [← gives, given]
      exact ValueType.admits_arithmetic isNumeric arithmetic left right
    | comparison notArithmetic | logical notArithmetic =>
      cases op <;> cases isArithmetic <;> cases notArithmetic
  | @comparison _ op _ _ _ _ _ _ isComparison =>
    intro stack operand value _ _ lowered evaluated
    have notArithmetic : op.arithmetic? = none := by cases op <;> cases isComparison <;> rfl
    rcases isPredicate_of_binary notArithmetic lowered with ⟨predicate, rfl⟩
    exact ValueType.admits_predicate evaluated
  | auth isAuth known =>
    intro stack operand value _ fits lowered evaluated
    rw [lowerWith_auth _ _ _ _ isAuth] at lowered
    cases lowered
    cases evaluated
    exact fits.principal _ known
  | future isFuture known =>
    rintro stack operand value rfl fits lowered evaluated
    rw [lowerWith_future _ _ _ _ isFuture] at lowered
    cases lowered
    cases evaluated
    exact fits.updated _ known
  | call notAuth notFuture gives =>
    intro stack operand value _ _ lowered evaluated
    rcases call_of_lowerWith resolved notAuth notFuture gives lowered with ⟨operands, _, rfl⟩
    rcases Except.bind_eq_ok.1 evaluated with ⟨values, _, evaluated⟩
    unfold EvalContext.call at evaluated
    split at evaluated
    next known found =>
      cases evaluated
      rw [← gives.evaluated known found]
      exact ValueType.admits_apply _ known values
    next => cases evaluated
  | quantified =>
    intro stack operand value _ _ lowered evaluated
    cases lowers_of_lowerWith lowered
    exact ValueType.admits_predicate evaluated

theorem testsTruth_asPredicate (resolved : lowering.schema.IsResolved) (base : lowering.base = 0)
    {stack : Stack} {expr : Expr} {operand : Operand}
    (typed : expr.Typed lowering.schema stack.scope .boolean)
    (fits : stack.Fits lowering.schema context)
    (lowered : expr.lowerWith lowering stack.scope = .ok operand)
    (sound : operand.TestsTruth context stack.values) :
    (Lower.asPredicate expr operand).TestsTruth context stack.values :=
  Lower.testsTruth_asPredicate sound fun value evaluated =>
    (typed.admits resolved base stack operand value rfl fits lowered evaluated).truth

theorem testsTruth (resolved : lowering.schema.IsResolved) (base : lowering.base = 0)
    {scope : Scope} {expr : Expr} {type : ValueType}
    (typed : expr.Typed lowering.schema scope type) :
    ∀ (stack : Stack) (operand : Operand), stack.scope = scope →
      stack.Fits lowering.schema context → expr.lowerWith lowering scope = .ok operand →
      operand.TestsTruth context stack.values := by
  -- By the rules again. What tests something was a condition, and `admits` says what that yields.
  induction typed with
  | literal =>
    intro stack operand _ _ lowered
    cases lowers_of_lowerWith lowered
    trivial
  | this found =>
    intro stack operand _ _ lowered
    rw [lowerWith, Lower.this, found] at lowered
    cases lowered
    trivial
  | field found | enumMember found =>
    intro stack operand _ _ lowered
    rw [lowerWith, Lower.reference, found] at lowered
    cases lowered
    trivial
  | access =>
    intro stack operand _ _ lowered
    cases lowers_of_lowerWith lowered with
    | access _ read => exact Lower.testsTruth_of_access read
  | not inner ih =>
    rintro stack operand rfl fits lowered
    cases lowers_of_lowerWith lowered with
    | not partLowered =>
      exact Predicate.testsTruth_negated (testsTruth_asPredicate resolved base inner fits
        partLowered (ih stack _ rfl fits partLowered))
  | negate _ _ ih =>
    intro stack operand same fits lowered
    cases lowers_of_lowerWith lowered with
    | @negate _ _ part partLowered => exact ih stack part same fits partLowered
  | @logical _ op left right _ isLogical first second leftIh rightIh =>
    rintro stack operand rfl fits lowered
    cases lowers_of_lowerWith lowered with
    | arithmetic isArithmetic => cases op <;> cases isLogical <;> cases isArithmetic
    | comparison _ isComparison => cases op <;> cases isLogical <;> cases isComparison
    | @logical _ _ _ _ head tail _ _ leftLowered rightLowered =>
      have parts : Predicate.AllTestTruth context stack.values
          [Lower.asPredicate left head, Lower.asPredicate right tail] :=
        ⟨testsTruth_asPredicate resolved base first fits leftLowered
            (leftIh stack head rfl fits leftLowered),
          testsTruth_asPredicate resolved base second fits rightLowered
            (rightIh stack tail rfl fits rightLowered), trivial⟩
      split <;> exact parts
  | @arithmetic _ op _ _ _ _ _ _ isArithmetic _ _ _ _ _ leftIh rightIh =>
    intro stack operand same fits lowered
    cases lowers_of_lowerWith lowered with
    | arithmetic _ leftLowered rightLowered =>
      exact ⟨leftIh stack _ same fits leftLowered, rightIh stack _ same fits rightLowered⟩
    | comparison notArithmetic | logical notArithmetic =>
      cases op <;> cases isArithmetic <;> cases notArithmetic
  | @comparison _ op _ _ _ _ _ _ isComparison _ _ _ leftIh rightIh =>
    intro stack operand same fits lowered
    cases lowers_of_lowerWith lowered with
    | arithmetic isArithmetic => cases op <;> cases isComparison <;> cases isArithmetic
    | comparison _ _ leftLowered rightLowered compared =>
      exact Lower.testsTruth_compare (leftIh stack _ same fits leftLowered)
        (rightIh stack _ same fits rightLowered) compared
    | logical _ notComparison => cases op <;> cases isComparison <;> cases notComparison
  | auth isAuth =>
    intro stack operand _ _ lowered
    rw [lowerWith_auth _ _ _ _ isAuth] at lowered
    cases lowered
    trivial
  | future isFuture =>
    intro stack operand _ _ lowered
    rw [lowerWith_future _ _ _ _ isFuture] at lowered
    cases lowered
    trivial
  | call notAuth notFuture gives _ ih =>
    intro stack operand same fits lowered
    rcases call_of_lowerWith resolved notAuth notFuture gives lowered with
      ⟨operands, argumentsLowered, rfl⟩
    refine Operand.allTestTruth_iff.2 fun part found => ?_
    rcases Argument.source_of_lowerAllWith argumentsLowered part found with
      ⟨argument, listed, partLowered⟩
    exact ih argument listed stack part same fits partLowered
  | @quantified _ collection _ _ _ model items test itemsIh testIh =>
    rintro stack operand rfl fits lowered
    cases lowers_of_lowerWith lowered with
    | @quantified _ _ _ _ found listed inner element itemsLowered testLowered =>
      rw [Lower.elementModel, items.typeIn_eq resolved] at element
      cases element
      refine Lower.testsTruth_quantify (itemsIh stack listed rfl fits itemsLowered) ?_
      intro value item evaluated member
      -- An item of the collection is a record of the model, so that the stack fits with it on top.
      have admits := items.admits resolved base stack listed value rfl fits itemsLowered evaluated
      have inside := fits.push (admits.elements item member)
      have sound := testIh (.element model item :: stack) inner rfl inside testLowered
      have condition : (Lower.asPredicate _ inner).TestsTruth context
          (Stack.values (.element model item :: stack)) :=
        testsTruth_asPredicate resolved base test inside testLowered sound
      exact condition

end Expr.Typed

/--
An expression has a part that is lowered with it, and that is evaluated with a stack. A condition
stands below each element that its collection evaluates to. Nothing is lowered of what is written
between the brackets of `auth` and `future`.
-/
inductive Expr.HasPart (lowering : LowerContext) (context : EvalContext) :
    Stack → Expr → Stack → Expr → Prop
  | self (stack : Stack) (expr : Expr) : HasPart lowering context stack expr stack expr
  | object {stack inner : Stack} {object part : Expr} {member : Ident} {span : Span}
      (below : HasPart lowering context stack object inner part) :
      HasPart lowering context stack (.access object member span) inner part
  | operand {stack inner : Stack} {op : UnaryOp} {operand part : Expr} {span : Span}
      (below : HasPart lowering context stack operand inner part) :
      HasPart lowering context stack (.unary op operand span) inner part
  | left {stack inner : Stack} {op : BinaryOp} {left right part : Expr} {span : Span}
      (below : HasPart lowering context stack left inner part) :
      HasPart lowering context stack (.binary op left right span) inner part
  | right {stack inner : Stack} {op : BinaryOp} {left right part : Expr} {span : Span}
      (below : HasPart lowering context stack right inner part) :
      HasPart lowering context stack (.binary op left right span) inner part
  | argument {stack inner : Stack} {function : Ident} {arguments : List Argument}
      {argument : Argument} {part : Expr} {span : Span} (notAuth : function.name ≠ "auth")
      (notFuture : function.name ≠ "future") (listed : argument ∈ arguments)
      (below : HasPart lowering context stack argument.value inner part) :
      HasPart lowering context stack (.call function arguments span) inner part
  | collection {stack inner : Stack} {collection condition part : Expr} {quantifier : Quantifier}
      {span : Span} (below : HasPart lowering context stack collection inner part) :
      HasPart lowering context stack (.quantified collection quantifier condition span) inner part
  | condition {stack inner : Stack} {collection condition part : Expr} {quantifier : Quantifier}
      {span : Span} {model : Model} {operand : Operand} {value item : Json}
      (element : (collection.typeIn lowering.schema stack.scope).kind = .model model)
      (lowered : collection.lowerWith lowering stack.scope = .ok operand)
      (evaluated : operand.evalIn context stack.values = .ok value)
      (member : item ∈ value.elements)
      (below : HasPart lowering context (.element model item :: stack) condition inner part) :
      HasPart lowering context stack (.quantified collection quantifier condition span) inner part

theorem Expr.HasPart.typed {lowering : LowerContext} {context : EvalContext}
    (resolved : lowering.schema.IsResolved) (base : lowering.base = 0) {stack inner : Stack}
    {expr part : Expr} (below : expr.HasPart lowering context stack inner part) :
    stack.Fits lowering.schema context → ∀ type, expr.Typed lowering.schema stack.scope type →
      inner.Fits lowering.schema context ∧
        part.Typed lowering.schema inner.scope (part.typeIn lowering.schema inner.scope) := by
  induction below with
  | self stack expr =>
    intro fits type typed
    exact ⟨fits, by rwa [typed.typeIn_eq resolved]⟩
  | object _ ih =>
    intro fits type typed
    cases typed with
    | access object => exact ih fits _ object
  | operand _ ih =>
    intro fits type typed
    cases typed with
    | not operand | negate operand => exact ih fits _ operand
  | left _ ih =>
    intro fits type typed
    cases typed with
    | logical _ left | arithmetic _ left | comparison _ left => exact ih fits _ left
  | right _ ih =>
    intro fits type typed
    cases typed with
    | logical _ _ right | arithmetic _ _ right | comparison _ _ right => exact ih fits _ right
  | argument notAuth notFuture listed _ ih =>
    intro fits type typed
    cases typed with
    | auth isAuth => exact absurd isAuth notAuth
    | future isFuture => exact absurd isFuture notFuture
    | call _ _ _ given => exact ih fits _ (given _ listed)
  | collection _ ih =>
    intro fits type typed
    cases typed with
    | quantified items => exact ih fits _ items
  | @condition stack _ _ _ _ _ _ model operand value item element lowered evaluated member _ ih =>
    intro fits type typed
    cases typed with
    | quantified items test =>
      rw [items.typeIn_eq resolved] at element
      cases element
      have admits := items.admits resolved base stack operand value rfl fits lowered evaluated
      exact ih (fits.push (admits.elements item member)) _ test

theorem Schema.isBooleanLike_of_lower {schema : Schema} {name : String} {record : Model}
    {expr : Expr} {predicate : Predicate} (known : schema.symbols.model? name = some record)
    (lowered : schema.lower name expr = .ok predicate) :
    (expr.typeIn schema [.record record]).isBooleanLike = true := by
  simp only [lower, known] at lowered
  split at lowered
  next clean =>
    have nothing := (List.append_eq_nil_iff.1 clean).2
    unfold Expr.typeIn
    cases fits : (expr.check schema true [.record record]).value.isBooleanLike with
    | true => rfl
    | false => simp [reportIf, fits] at nothing
  next => cases lowered

/--
A predicate that is lowered from a standard expression is evaluated on values of the types that the
check gives, as long as the records conform to the schema.
-/
theorem Schema.admits_of_lower {document : Document} {options : ValidationOptions} {name : String}
    {record : Model} {expr : Expr} {predicate : Predicate} {context : EvalContext}
    (valid : (document.validate options).isValid = true)
    (known : (Schema.ofDocument document).symbols.model? name = some record)
    (standard : expr.isStandard = true)
    (lowered : (Schema.ofDocument document).lower name expr = .ok predicate)
    (conforms : context.Conforms (.ofDocument document) record) :
    (∀ inner part operand value,
      expr.HasPart (.outside (.ofDocument document)) context [.record record context.record] inner
        part →
      part.lowerWith (.outside (.ofDocument document)) inner.scope = .ok operand →
      operand.evalIn context inner.values = .ok value →
        (part.typeIn (.ofDocument document) inner.scope).Admits (.ofDocument document) value) ∧
      predicate.TestsTruth context [context.record] := by
  have resolved := isResolved_of_isValid valid
  have isBoolean := isBooleanLike_of_lower known lowered
  rcases lower_eq_ok known lowered with ⟨clean, operand, operandLowered, rfl⟩
  let stack : Stack := [.record record context.record]
  have fits : stack.Fits (.ofDocument document) context := .ofRecord conforms
  have typed := expr.typed_of_clean resolved stack.scope fits.carriesValues standard clean
  constructor
  · intro inner part operand value below partLowered evaluated
    rcases below.typed resolved rfl fits _ typed with ⟨innerFits, partTyped⟩
    exact partTyped.admits resolved rfl inner operand value rfl innerFits partLowered evaluated
  · have truth := ValueType.eq_boolean typed.notAny isBoolean
    rw [truth] at typed
    have sound : operand.TestsTruth context stack.values :=
      typed.testsTruth resolved rfl stack operand rfl fits operandLowered
    exact Expr.Typed.testsTruth_asPredicate resolved rfl typed fits operandLowered sound

namespace Blog

def ownsAllPredicate : Predicate := (schema.lower "User" ownsAll).toOption.getD default

def asked : EvalContext := { context with principal := some (.object [("id", .int 1)]) }

theorem hasType_post (number : Int) (flag : Bool) :
    (Json.object [("id", .int number), ("published", .bool flag)]).HasType schema
      (.model post) := by
  refine .ofFields post.fields rfl ?_
  simp only [post, model, List.forall_mem_cons]
  refine ⟨?_, ?_, ?_, ?_, nofun⟩
  · rintro _ ⟨⟩
    exact .int rfl number
  · rintro _ ⟨⟩
    exact .boolean flag
  · exact nofun
  · exact nofun

theorem conforms_asked : asked.Conforms schema user := by
  have anyone : (Json.object [("id", .int 1)]).HasType schema (.model user) := by
    refine .ofFields user.fields rfl ?_
    simp only [user, model, List.forall_mem_cons]
    refine ⟨?_, nofun, nofun⟩
    rintro _ ⟨⟩
    exact .int rfl 1
  refine ⟨.inr ?_, nofun, ?_⟩
  · refine .ofFields user.fields rfl ?_
    simp only [user, model, List.forall_mem_cons]
    refine ⟨?_, ?_, nofun⟩
    · rintro _ ⟨⟩
      exact .int rfl 1
    · rintro _ ⟨⟩
      refine .list ?_
      simp only [List.forall_mem_cons]
      exact ⟨hasType_post 1 false, hasType_post 2 true, nofun⟩
  · rintro _ _ ⟨⟩ known
    cases known
    exact .inr anyone

end Blog

theorem Blog.admits_ownsAll :
    schema.lower "User" ownsAll = .ok ownsAllPredicate ∧ asked.Conforms schema user ∧
      (∀ inner part operand value,
        ownsAll.HasPart (.outside schema) asked [.record user asked.record] inner part →
        part.lowerWith (.outside schema) inner.scope = .ok operand →
        operand.evalIn asked inner.values = .ok value →
          (part.typeIn schema inner.scope).Admits schema value) ∧
      ownsAllPredicate.TestsTruth asked [asked.record] := by
  have valid : (document.validate .standard).isValid = true := by decide +kernel
  have known : schema.symbols.model? "User" = some user := rfl
  have standard : ownsAll.isStandard = true := by decide +kernel
  have lowered : schema.lower "User" ownsAll = .ok ownsAllPredicate := rfl
  exact ⟨lowered, conforms_asked,
    Schema.admits_of_lower valid known standard lowered conforms_asked⟩

end Schemata
