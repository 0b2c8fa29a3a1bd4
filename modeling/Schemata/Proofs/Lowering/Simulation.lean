import Schemata.Proofs.Lowering.Hygiene
import Schemata.Proofs.Lowering.Parts

set_option autoImplicit false

namespace Schemata

def Binding.frame? : Binding → Option Nat
  | .param frame _ _ | .field frame _ _ _ => some frame
  | .enumMember _ _ => none

namespace Scope

variable {schema : Schema} {name : String}

theorem lookup?_cons_cases {layer : Frame} {outer : Scope} {binding : Binding}
    (found : lookup? schema name (layer :: outer) = some binding) :
    lookupIn? schema name outer layer = some binding ∨ lookup? schema name outer = some binding := by
  rw [lookup?, Option.or_eq_some_iff] at found
  exact found.imp id And.right

theorem lookupIn?_cases {layer : Frame} {outer : Scope} {binding : Binding}
    (found : lookupIn? schema name outer layer = some binding) :
    (∃ params index param, layer = .function params ∧
      binding = .param outer.length index param) ∨
    (∃ model field, layer.model? = some model ∧
      binding = .field outer.length outer.valueDepth model field) := by
  cases layer with
  | function params =>
    simp only [lookupIn?, Option.bind_eq_bind, Option.bind_eq_some_iff] at found
    obtain ⟨index, _, param, _, same⟩ := found
    cases same
    exact .inl ⟨params, index, param, rfl, rfl⟩
  | record model | element model =>
    simp only [lookupIn?, Option.map_eq_some_iff] at found
    obtain ⟨visible, _, same⟩ := found
    cases same
    exact .inr ⟨model, visible.field, rfl, rfl⟩

theorem frame_lt_of_lookup? {scope : Scope} {binding : Binding} {frame : Nat}
    (found : lookup? schema name scope = some binding) (bound : binding.frame? = some frame) :
    frame < scope.length := by
  induction scope with
  | nil =>
    simp only [lookup?, Option.map_eq_some_iff] at found
    obtain ⟨_, _, same⟩ := found
    cases same
    simp [Binding.frame?] at bound
  | cons layer outer ih =>
    rw [List.length_cons]
    rcases lookup?_cons_cases found with here | outside
    · obtain ⟨_, _, _, _, rfl⟩ | ⟨_, _, _, rfl⟩ := lookupIn?_cases here <;>
        simp only [Binding.frame?, Option.some.injEq] at bound <;> omega
    · exact Nat.lt_succ_of_lt (ih outside)

end Scope

namespace Stack

@[simp] theorem scope_cons (layer : Layer) (outer : Stack) :
    scope (layer :: outer) = layer.frame :: scope outer := rfl

@[simp] theorem length_scope (stack : Stack) : stack.scope.length = stack.length :=
  List.length_map ..

theorem length_values (stack : Stack) : stack.values.length = stack.scope.valueDepth := by
  induction stack with
  | nil => rfl
  | cons layer outer ih =>
    cases layer <;> simp [values, Scope.valueDepth, Layer.frame, Layer.value?, Frame.model?, ih]

theorem getElem?_values_this {stack : Stack} {frame place : Nat} {model : Model}
    (found : stack.scope.this? = some (frame, place, model)) :
    stack.values[place]? = some stack.this := by
  induction stack with
  | nil => simp [scope, Scope.this?] at found
  | cons layer outer ih =>
    cases layer with
    | record own value | element own value =>
      simp only [scope_cons, Layer.frame, Scope.this?, Frame.model?, Option.some.injEq,
        Prod.mk.injEq] at found
      obtain ⟨_, rfl, _⟩ := found
      -- The innermost value is the last one, behind as many as the outer frames carry.
      simp [values, Layer.value?, this, ← length_values]
    | function params results => simpa [values, Layer.value?, this] using ih found

theorem layerAt?_cons_of_lt {layer : Layer} {outer : Stack} {frame : Nat}
    (below : frame < outer.length) : layerAt? (layer :: outer) frame = layerAt? outer frame := by
  rw [layerAt?, if_neg (Nat.ne_of_lt below)]

theorem getElem?_values_of_lookup? {schema : Schema} {name : String} {stack : Stack}
    {frame place : Nat} {model : Model} {field : Field}
    (found : stack.scope.lookup? schema name = some (.field frame place model field)) :
    stack.values[place]? = some (stack.valueAt frame) := by
  induction stack with
  | nil => simp [scope, Scope.lookup?] at found
  | cons layer outer ih =>
    rw [scope_cons] at found
    rcases Scope.lookup?_cons_cases found with here | outside
    · obtain ⟨_, _, _, _, wrong⟩ | ⟨own, _, carries, same⟩ := Scope.lookupIn?_cases here
      · cases wrong
      · cases same
        cases layer with
        | function => simp [Layer.frame, Frame.model?] at carries
        | record | element =>
          simp [values, valueAt, layerAt?, Layer.value?, ← length_values]
    · -- Behind more values, the place of an outer frame is what it was.
      have below : frame < outer.length := by
        simpa using Scope.frame_lt_of_lookup? outside rfl
      have value := ih outside
      have inside := (List.getElem?_eq_some_iff.1 value).1
      rw [values, List.getElem?_append_left inside, value, valueAt, valueAt,
        layerAt?_cons_of_lt below]

end Stack

section

variable (lowering : LowerContext) (context : EvalContext) (around : List Json)

/--
The argument of a parameter evaluates to what the parameter denotes, with `more` elements in scope
behind the values of the stack.
-/
def Stack.Denotes (stack : Stack) (more : List Json) (index : Nat) : Prop :=
  ∀ name frame param operand,
    stack.scope.lookup? lowering.schema name = some (.param frame index param) →
    lowering.arguments[index]? = some operand →
      operand.evalIn context (around ++ stack.values ++ more) = stack.resultAt frame index

structure Expr.ParamsDenote (stack : Stack) (expr : Expr) : Prop where
  here : ∀ index ∈ expr.paramsRead lowering.schema false stack.scope,
    stack.Denotes lowering context around [] index
  inside : ∀ index ∈ expr.paramsRead lowering.schema true stack.scope, ∀ more : List Json,
    stack.Denotes lowering context around more index

variable {lowering context around} {stack : Stack}

theorem Stack.Denotes.push {more : List Json} {index : Nat} {item : Json} {model : Model}
    (denotes : stack.Denotes lowering context around (item :: more) index) :
    Stack.Denotes lowering context around (.element model item :: stack) more index := by
  intro name frame param operand found argument
  rw [Stack.scope_cons] at found
  rcases Scope.lookup?_cons_cases found with here | outside
  · -- Frames of elements hold no parameters.
    obtain ⟨_, _, _, wrong, _⟩ | ⟨_, _, _, wrong⟩ := Scope.lookupIn?_cases here <;> cases wrong
  · have below : frame < stack.length := by simpa using Scope.frame_lt_of_lookup? outside rfl
    rw [Stack.resultAt, Stack.layerAt?_cons_of_lt below, ← Stack.resultAt,
      ← denotes name frame param operand outside argument]
    simp [Stack.values, Layer.value?]

theorem Expr.ParamsDenote.of_subset {expr part : Expr}
    (denote : expr.ParamsDenote lowering context around stack)
    (subset : ∀ inside, part.paramsRead lowering.schema inside stack.scope ⊆
      expr.paramsRead lowering.schema inside stack.scope) :
    part.ParamsDenote lowering context around stack :=
  ⟨fun index read => denote.here index (subset false read),
    fun index read => denote.inside index (subset true read)⟩

theorem Expr.ParamsDenote.argument {function : Ident} {arguments : List Argument} {span : Span}
    {argument : Argument} (evaluated : function.name ≠ "auth" ∧ function.name ≠ "future")
    (denote : (Expr.call function arguments span).ParamsDenote lowering context around stack)
    (found : argument ∈ arguments) :
    argument.value.ParamsDenote lowering context around stack := by
  apply denote.of_subset
  intro inside index read
  rw [Expr.paramsRead, if_neg (not_or.2 evaluated), Argument.mem_paramsReadByAll]
  exact ⟨argument, found, read⟩

theorem Expr.ParamsDenote.item {items : List Expr} {span : Span} {item : Expr}
    (denote : (Expr.list items span).ParamsDenote lowering context around stack)
    (found : item ∈ items) : item.ParamsDenote lowering context around stack := by
  apply denote.of_subset
  intro inside index read
  rw [Expr.paramsRead, Expr.mem_paramsReadByAll]
  exact ⟨item, found, read⟩

theorem Expr.ParamsDenote.condition {collection condition : Expr} {quantifier : Quantifier}
    {span : Span} {model : Model} {item : Json}
    (denote : (Expr.quantified collection quantifier condition span).ParamsDenote
      lowering context around stack)
    (element : (collection.typeIn lowering.schema stack.scope).kind = .model model) :
    condition.ParamsDenote lowering context around (.element model item :: stack) := by
  -- A parameter that the condition reads is one that the collection predicate reads inside, and
  -- so its argument has its meaning with any elements behind the stack.
  have inside {index : Nat}
      (read : index ∈ condition.paramsRead lowering.schema false (.element model :: stack.scope))
      (more : List Json) : stack.Denotes lowering context around more index := by
    apply denote.inside index
    rw [Expr.paramsRead, element]
    exact List.mem_append_right _ read
  constructor
  · intro index read
    exact (inside read _).push
  · intro index read more
    exact (inside (condition.mem_paramsRead_of_inside _ read) _).push

end

def LowerContext.meaning (lowering : LowerContext) (context : EvalContext)
    (apply : FunctionDecl → List Evaluated → Evaluated) : Interpretation :=
  ⟨lowering.schema, context, lowering.schema.agree, apply⟩

def LowerContext.Inlines (lowering : LowerContext) (context : EvalContext)
    (apply : FunctionDecl → List Evaluated → Evaluated) : Prop :=
  ∀ decl arguments depth operand (values : List Json),
    lowering.inline decl arguments depth = .ok operand →
    values.length = lowering.base + depth →
      operand.evalIn context values = apply decl (arguments.map (Operand.evalIn context values))

section

variable {lowering : LowerContext} {context : EvalContext}
  {apply : FunctionDecl → List Evaluated → Evaluated} {around : List Json}

theorem EvalContext.readField_around {stack : Stack} {base place : Nat} {value : Json}
    (length : around.length = base) (found : stack.values[place]? = some value)
    (path : List String) :
    EvalContext.readField (around ++ stack.values) (base + place) path = .ok (value.walk path) := by
  have read : (around ++ stack.values)[base + place]? = some value := by
    rw [← length, List.getElem?_append_right (by omega), Nat.add_sub_cancel_left, found]
  rw [readField, read]

theorem Lower.evalIn_this {stack : Stack} {operand : Operand}
    (base : around.length = lowering.base)
    (lowered : Lower.this lowering stack.scope = .ok operand) :
    operand.evalIn context (around ++ stack.values) = .ok stack.this := by
  unfold Lower.this at lowered
  split at lowered
  next frame place model found =>
    cases lowered
    rw [Operand.evalIn, EvalContext.readField_around base (Stack.getElem?_values_this found)]
    rfl
  next => cases lowered

theorem Lower.evalIn_reference {stack : Stack} {name : Ident} {span : Span} {operand : Operand}
    (base : around.length = lowering.base)
    (denote : (Expr.reference name span).ParamsDenote lowering context around stack)
    (lowered : Lower.reference lowering stack.scope name.name = .ok operand) :
    operand.evalIn context (around ++ stack.values) =
      (lowering.meaning context apply).read stack name.name := by
  unfold Lower.reference at lowered
  unfold Interpretation.read LowerContext.meaning
  split at lowered
  next frame index param found =>
    split at lowered
    next argument given =>
      cases lowered
      have read : index ∈ (Expr.reference name span).paramsRead lowering.schema false stack.scope := by
        simp [Expr.paramsRead, Scope.paramIndex?, found]
      have value := denote.here index read name.name frame param operand found given
      simpa [found] using value
    next => cases lowered
  next frame place model field found =>
    cases lowered
    rw [Operand.evalIn,
      EvalContext.readField_around base (Stack.getElem?_values_of_lookup? found),
      Json.walk_singleton]
    simp [found]
  next decl enumMember found =>
    cases lowered
    simp [Operand.evalIn, found]
  next => cases lowered

theorem Lower.inlinable?_eq (schema : Schema) (name : String) :
    inlinable? schema name = schema.defined? name := by
  unfold inlinable? Schema.defined? SymbolTable.function? SymbolTable.origin?
    SymbolTable.declaration?
  cases schema.symbols.symbol? name with
  | none => rfl
  | some symbol =>
    obtain ⟨declaration, origin⟩ := symbol
    cases declaration <;> cases origin <;> rfl

theorem Lower.number_eq_ok {text : String} {value : Json} (lowered : number text = .ok value) :
    value = Numeral.value text := by
  unfold number at lowered
  unfold Numeral.value
  split at lowered
  next whole isWhole =>
    obtain ⟨read, fits⟩ := Option.filter_eq_some_iff.1 isWhole
    obtain ⟨same, plain⟩ := Numeral.int?_eq_some read
    have noMark := List.all_eq_true.2 fun char among =>
      decide_eq_true (Numeral.notMem_of_plain (plain char among) (List.Subset.refl _))
    cases lowered
    simp only [← same, fits, noMark, Bool.and_self, if_true]
  next notWhole =>
    split at lowered
    next double isDouble =>
      have read := (Option.filter_eq_some_iff.1 isDouble).1
      cases lowered
      rw [if_neg, Numeral.float?_eq_some read]
      intro isWhole
      obtain ⟨noMark, fits⟩ := Bool.and_eq_true_iff.1 isWhole
      have whole := Numeral.int?_of_float? read (by simpa using noMark)
      rw [whole, Option.filter_some, if_pos fits] at notWhole
      cases notWhole
    next => cases lowered

theorem Lower.evalIn_call {stack : Stack} {name : String} {arguments : List Operand}
    {operand : Operand} {results : List Evaluated}
    (inlines : lowering.Inlines context apply) (base : around.length = lowering.base)
    (evaluated : arguments.map (Operand.evalIn context (around ++ stack.values)) = results)
    (lowered : Lower.call lowering stack.scope name arguments = .ok operand) :
    operand.evalIn context (around ++ stack.values) =
      (lowering.meaning context apply).call name results := by
  unfold Lower.call at lowered
  unfold Interpretation.call LowerContext.meaning
  rw [inlinable?_eq] at lowered
  split at lowered
  next decl found =>
    -- In scope at the call are the values around the body and behind them those of the stack.
    have depth : (around ++ stack.values).length =
        lowering.base + Scope.valueDepth stack.scope := by
      rw [List.length_append, base, Stack.length_values]
    simp only [found]
    rw [inlines _ _ _ _ _ lowered depth, evaluated]
  next found =>
    cases lowered
    simp only [found, Operand.evalIn, Operand.evalEach_eq_mapM, evaluated]

theorem Lower.comparedModel?_eq {schema : Schema} {scope : Scope} {op : Comparison}
    {left right : Expr} : comparedModel? schema scope op left right =
      if op = .eq ∨ op = .ne then schema.recordModel? scope left right else none := by
  unfold comparedModel? Schema.recordModel?
  cases op <;> cases left.isNull <;> cases right.isNull <;> try rfl
  all_goals
    cases (left.typeIn schema scope).model? <;> rfl

theorem Interpretation.operate_comparison {meaning : Interpretation} {scope : Scope} {op : BinaryOp}
    {comparison : Comparison} {left right : Expr} {value other : Json}
    (isComparison : op.comparison? = some comparison) :
    meaning.operate scope op left right value other =
      .bool (match Lower.comparedModel? meaning.schema scope comparison left right with
        | some model =>
            if comparison = .eq then meaning.sameRecord model value other
            else !meaning.sameRecord model value other
        | none => comparison.holds value other) := by
  rw [Lower.comparedModel?_eq]
  cases op <;> cases isComparison <;> try rfl
  all_goals
    simp only [operate, equates]
    cases meaning.schema.recordModel? scope left right <;> rfl

theorem Interpretation.operate_arithmetic {meaning : Interpretation} {scope : Scope} {op : BinaryOp}
    {arithmetic : Arithmetic} {left right : Expr} {value other : Json}
    (isArithmetic : op.arithmetic? = some arithmetic) :
    meaning.operate scope op left right value other = arithmetic.apply value other := by
  cases op <;> cases isArithmetic <;> rfl

theorem Interpretation.operate_logical {meaning : Interpretation} {scope : Scope} {op : BinaryOp}
    {left right : Expr} {value other : Json} (isLogical : op.isLogical = true) :
    meaning.operate scope op left right value other = .bool other.isTrue := by
  cases op <;> first | rfl | cases isLogical

theorem Lower.evalIn_compare {scope : Scope} {op : BinaryOp} {comparison : Comparison}
    {left right : Expr} {first second : Operand} {predicate : Predicate}
    (apply : FunctionDecl → List Evaluated → Evaluated) (scopes : List Json)
    (isComparison : op.comparison? = some comparison)
    (lowered : Lower.compare lowering.schema comparison
      (Lower.comparedModel? lowering.schema scope comparison left right) first second =
        .ok predicate) :
    (Operand.predicate predicate).evalIn context scopes =
      (first.evalIn context scopes).bind fun value =>
        (second.evalIn context scopes).map fun other =>
          (lowering.meaning context apply).operate scope op left right value other := by
  simp only [Interpretation.operate_comparison isComparison, LowerContext.meaning, Operand.evalIn]
  generalize Lower.comparedModel? lowering.schema scope comparison left right = model? at lowered ⊢
  cases model? with
  | some model =>
    simp only [Lower.evalIn_compareRecords context scopes lowered]
    cases first.evalIn context scopes with
    | error error => rfl
    | ok value => cases second.evalIn context scopes <;> rfl
  | none =>
    cases lowered
    simp only [Predicate.evalIn]
    cases first.evalIn context scopes with
    | error error => rfl
    | ok value => cases second.evalIn context scopes <;> rfl

theorem Lower.evalIn_logical (scopes : List Json) (op : BinaryOp) (first second : Predicate) :
    (if op = .and then Predicate.and [first, second] else .or [first, second]).evalIn
        context scopes =
      (first.evalIn context scopes).bind fun value =>
        if value = (op == .and) then second.evalIn context scopes else .ok value := by
  by_cases isAnd : op = .and
  · simp only [isAnd, if_true, Predicate.evalIn, Predicate.evalAll, beq_self_eq_true]
    cases first.evalIn context scopes with
    | error error => rfl
    | ok value =>
      cases value with
      | false => rfl
      | true =>
        cases second.evalIn context scopes with
        | error error => rfl
        | ok other => cases other <;> rfl
  · simp only [isAnd, if_false, Predicate.evalIn, Predicate.evalAny, beq_eq_false_iff_ne.2 isAnd]
    cases first.evalIn context scopes with
    | error error => rfl
    | ok value =>
      cases value with
      | true => rfl
      | false =>
        cases second.evalIn context scopes with
        | error error => rfl
        | ok other => cases other <;> rfl

theorem BinaryOp.settled?_eq {op : BinaryOp} {value : Json} : op.settled? value =
    if op.isLogical = true ∧ value.isTrue ≠ (op == .and) then some value.isTrue else none := by
  unfold settled?
  cases op <;> cases value.isTrue <;> rfl

theorem BinaryOp.isLogical_iff {op : BinaryOp} :
    op.isLogical = true ↔ op.arithmetic? = none ∧ op.comparison? = none := by
  cases op <;> simp [isLogical, arithmetic?, comparison?]

theorem Lower.evalIn_binary {stack : Stack} {op : BinaryOp} {left right : Expr} {span : Span}
    {operand : Operand}
    (leftIh : ∀ operand, left.lowerWith lowering stack.scope = .ok operand →
      operand.evalIn context (around ++ stack.values) =
        left.interpretWith (lowering.meaning context apply) stack)
    (rightIh : ∀ operand, right.lowerWith lowering stack.scope = .ok operand →
      operand.evalIn context (around ++ stack.values) =
        right.interpretWith (lowering.meaning context apply) stack)
    (lowered : (Expr.binary op left right span).lowerWith lowering stack.scope = .ok operand) :
    operand.evalIn context (around ++ stack.values) =
      (Expr.binary op left right span).interpretWith (lowering.meaning context apply) stack := by
  rw [Expr.interpretWith]
  simp only [BinaryOp.settled?_eq, BinaryOp.isLogical_iff]
  cases Expr.lowers_of_lowerWith lowered with
  | arithmetic isArithmetic leftLowered rightLowered =>
    simp only [isArithmetic, reduceCtorEq, false_and, if_false,
      Interpretation.operate_arithmetic isArithmetic]
    rw [Operand.evalIn, leftIh _ leftLowered, rightIh _ rightLowered]
  | comparison _ isComparison leftLowered rightLowered compared =>
    simp only [isComparison, reduceCtorEq, and_false, false_and, if_false]
    rw [Lower.evalIn_compare apply _ isComparison compared, leftIh _ leftLowered,
      rightIh _ rightLowered]
    cases left.interpretWith (lowering.meaning context apply) stack with
    | error error => rfl
    | ok value =>
      cases right.interpretWith (lowering.meaning context apply) stack <;> rfl
  | logical notArithmetic notComparison leftLowered rightLowered =>
    have isLogical := BinaryOp.isLogical_iff.2 ⟨notArithmetic, notComparison⟩
    simp only [notArithmetic, notComparison, and_self, true_and]
    rw [Operand.evalIn, Lower.evalIn_logical, Lower.evalIn_asPredicate context _ leftLowered,
      Lower.evalIn_asPredicate context _ rightLowered, leftIh _ leftLowered,
      rightIh _ rightLowered]
    cases left.interpretWith (lowering.meaning context apply) stack with
    | error error => rfl
    | ok value =>
      simp only [bind, Except.bind, Except.map, Interpretation.operate_logical isLogical]
      -- The right side is evaluated only where the left one does not decide.
      by_cases goesOn : value.isTrue = (op == .and)
      · simp only [goesOn, ne_eq, not_true_eq_false, if_true, if_false]
        cases right.interpretWith (lowering.meaning context apply) stack <;> rfl
      · simp only [goesOn, ne_eq, not_false_eq_true, if_true, if_false]

theorem Expr.evalIn_lowerAllWith {stack : Stack} {items : List Expr} {operands : List Operand}
    (each : ∀ item ∈ items, ∀ operand, item.lowerWith lowering stack.scope = .ok operand →
      operand.evalIn context (around ++ stack.values) =
        item.interpretWith (lowering.meaning context apply) stack)
    (lowered : Expr.lowerAllWith lowering stack.scope items = .ok operands) :
    operands.map (Operand.evalIn context (around ++ stack.values)) =
      Expr.interpretEach (lowering.meaning context apply) stack items := by
  induction items generalizing operands with
  | nil =>
    cases lowered
    rfl
  | cons item rest ih =>
    obtain ⟨first, firstLowered, lowered⟩ := Except.bind_eq_ok.1 lowered
    obtain ⟨others, othersLowered, lowered⟩ := Except.bind_eq_ok.1 lowered
    cases lowered
    rw [List.map_cons, Expr.interpretEach, each item List.mem_cons_self first firstLowered,
      ih (fun other found => each other (List.mem_cons_of_mem _ found)) othersLowered]

theorem Argument.evalIn_lowerAllWith {stack : Stack} {arguments : List Argument}
    {operands : List Operand}
    (each : ∀ argument ∈ arguments, ∀ operand,
      argument.value.lowerWith lowering stack.scope = .ok operand →
        operand.evalIn context (around ++ stack.values) =
          argument.value.interpretWith (lowering.meaning context apply) stack)
    (lowered : Argument.lowerAllWith lowering stack.scope arguments = .ok operands) :
    operands.map (Operand.evalIn context (around ++ stack.values)) =
      Argument.interpretEach (lowering.meaning context apply) stack arguments := by
  induction arguments generalizing operands with
  | nil =>
    cases lowered
    rfl
  | cons argument rest ih =>
    have head := each argument List.mem_cons_self
    have tail := fun other found => each other (List.mem_cons_of_mem _ found)
    cases argument with
    | positional value | named name value =>
      obtain ⟨first, firstLowered, lowered⟩ := Except.bind_eq_ok.1 lowered
      obtain ⟨others, othersLowered, lowered⟩ := Except.bind_eq_ok.1 lowered
      cases lowered
      rw [List.map_cons, Argument.interpretEach, head first firstLowered, ih tail othersLowered]
      rfl

theorem Expr.evalIn_lowerWith (inlines : lowering.Inlines context apply)
    (base : around.length = lowering.base) (expr : Expr) :
    ∀ (stack : Stack) (operand : Operand), expr.ParamsDenote lowering context around stack →
      expr.lowerWith lowering stack.scope = .ok operand →
        operand.evalIn context (around ++ stack.values) =
          expr.interpretWith (lowering.meaning context apply) stack := by
  -- The stack varies: the condition of a collection predicate is evaluated on a longer one.
  induction expr using Expr.inductionOn with
  | literal value span =>
    intro stack operand _ lowered
    -- Only a number may fail to lower, and then there is nothing to show.
    cases value with
    | number text =>
      rw [Expr.lowerWith, Lower.literal] at lowered
      obtain ⟨json, number, isOperand⟩ := Except.map_eq_ok.1 lowered
      cases isOperand
      rw [Expr.interpretWith, Literal.value, ← Lower.number_eq_ok number]
      rfl
    | string | boolean | null =>
      cases lowered
      rfl
  | this span =>
    intro stack operand _ lowered
    rw [Expr.lowerWith] at lowered
    rw [Expr.interpretWith, Lower.evalIn_this base lowered]
  | reference name span =>
    intro stack operand denote lowered
    rw [Expr.interpretWith]
    rw [Expr.lowerWith] at lowered
    exact Lower.evalIn_reference base denote lowered
  | access object member span ih =>
    intro stack operand denote lowered
    cases Expr.lowers_of_lowerWith lowered with
    | access objectLowered read =>
      have value := ih stack _ (denote.of_subset fun _ => List.Subset.refl _) objectLowered
      rw [Lower.evalIn_access context _ read, value, Expr.interpretWith]
      rfl
  | unary op inner span ih =>
    intro stack operand denote lowered
    have value (part : Operand) :=
      ih stack part (denote.of_subset fun _ => List.Subset.refl _)
    cases Expr.lowers_of_lowerWith lowered with
    | negate partLowered =>
      rw [Operand.evalIn, value _ partLowered, Expr.interpretWith]
    | not partLowered =>
      rw [Operand.evalIn, Predicate.evalIn_negated, Lower.evalIn_asPredicate context _ partLowered,
        value _ partLowered, Expr.interpretWith]
      cases inner.interpretWith (lowering.meaning context apply) stack <;> rfl
  | binary op left right span leftIh rightIh =>
    intro stack operand denote lowered
    apply Lower.evalIn_binary _ _ lowered
    · intro part
      exact leftIh stack part (denote.of_subset fun inside => by simp [Expr.paramsRead])
    · intro part
      exact rightIh stack part (denote.of_subset fun inside => by simp [Expr.paramsRead])
  | call function arguments span ih =>
    intro stack operand denote lowered
    cases Expr.lowers_of_lowerWith lowered with
    | auth isAuth =>
      rw [Expr.interpretWith_auth _ _ _ _ isAuth, Operand.evalIn, EvalContext.readPrincipal,
        LowerContext.meaning]
      cases context.principal <;> rfl
    | future isFuture =>
      rw [Expr.interpretWith_future _ _ _ _ isFuture]
      rfl
    | call notAuth notFuture argumentsLowered called =>
      have values := Argument.evalIn_lowerAllWith
        (fun argument found part =>
          ih argument found stack part (denote.argument ⟨notAuth, notFuture⟩ found))
        argumentsLowered
      rw [Expr.interpretWith_call _ _ _ _ notAuth notFuture]
      exact Lower.evalIn_call inlines base values called
  | list items span ih =>
    intro stack operand denote lowered
    cases Expr.lowers_of_lowerWith lowered with
    | list itemsLowered =>
      have values := Expr.evalIn_lowerAllWith
        (fun item found part => ih item found stack part (denote.item found)) itemsLowered
      rw [Operand.evalIn, Operand.evalEach_eq_mapM, values, Expr.interpretWith]
  | quantified collection quantifier condition span collectionIh conditionIh =>
    intro stack operand denote lowered
    cases Expr.lowers_of_lowerWith lowered with
    | @quantified _ _ _ _ model items inner element collectionLowered conditionLowered =>
      have kind := Lower.elementModel_eq_ok element
      have value := collectionIh stack items
        (denote.of_subset fun inside => by simp [Expr.paramsRead]) collectionLowered
      -- The element comes behind the values of the stack, as the innermost frame of the new stack.
      have test (item : Json) :
          (Lower.asPredicate condition inner).evalIn context (around ++ stack.values ++ [item]) =
            (condition.interpretWith (lowering.meaning context apply)
              (.element model item :: stack)).map Json.isTrue := by
        rw [Lower.evalIn_asPredicate context _ conditionLowered, List.append_assoc]
        exact congrArg _ (conditionIh (.element model item :: stack) inner
          (denote.condition kind) conditionLowered)
      rw [Operand.evalIn, Lower.evalIn_quantify, value, Expr.interpretWith]
      cases collection.interpretWith (lowering.meaning context apply) stack with
      | error error => rfl
      | ok found =>
        simp only [test, bind, Except.bind, LowerContext.meaning, kind]
        rfl

end

end Schemata
