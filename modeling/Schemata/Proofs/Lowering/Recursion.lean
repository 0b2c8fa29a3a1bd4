import Schemata.Proofs.Lowering.Names
import Mathlib.Logic.Relation

set_option autoImplicit false

namespace Schemata

/--
A function is called in a part of an expression that is lowered. The arguments of `auth` and
`future` are not.
-/
inductive Expr.Invokes (name : String) : Expr → Prop
  | access {object : Expr} {member : Ident} {span : Span} (inner : Invokes name object) :
      Invokes name (.access object member span)
  | unary {op : UnaryOp} {operand : Expr} {span : Span} (inner : Invokes name operand) :
      Invokes name (.unary op operand span)
  | left {op : BinaryOp} {left right : Expr} {span : Span} (inner : Invokes name left) :
      Invokes name (.binary op left right span)
  | right {op : BinaryOp} {left right : Expr} {span : Span} (inner : Invokes name right) :
      Invokes name (.binary op left right span)
  | call {function : Ident} {arguments : List Argument} {span : Span}
      (notAuth : function.name ≠ "auth") (notFuture : function.name ≠ "future")
      (named : function.name = name) : Invokes name (.call function arguments span)
  | argument {function : Ident} {arguments : List Argument} {argument : Argument} {span : Span}
      (notAuth : function.name ≠ "auth") (notFuture : function.name ≠ "future")
      (given : argument ∈ arguments) (inner : Invokes name argument.value) :
      Invokes name (.call function arguments span)
  | item {items : List Expr} {item : Expr} {span : Span} (listed : item ∈ items)
      (inner : Invokes name item) : Invokes name (.list items span)
  | collection {collection condition : Expr} {quantifier : Quantifier} {span : Span}
      (inner : Invokes name collection) :
      Invokes name (.quantified collection quantifier condition span)
  | condition {collection condition : Expr} {quantifier : Quantifier} {span : Span}
      (inner : Invokes name condition) :
      Invokes name (.quantified collection quantifier condition span)

def Lower.Calls (schema : Schema) (caller callee : String) : Prop :=
  ∃ decl body, inlinable? schema caller = some decl ∧ decl.body = some body ∧ body.Invokes callee

structure Expr.MeetsCycle (schema : Schema) (expr : Expr) (name : String) : Prop where
  reached : ∃ first, expr.Invokes first ∧ Relation.ReflTransGen (Lower.Calls schema) first name
  cycle : Relation.TransGen (Lower.Calls schema) name name

theorem Lower.name_of_inlinable? {schema : Schema} {name : String} {decl : FunctionDecl}
    (defined : inlinable? schema name = some decl) : decl.name.name = name := by
  have named := List.find?_some (symbol?_of_inlinable? defined).1
  exact of_decide_eq_true named

theorem Lower.defined_of_leads {schema : Schema} {name other : String}
    (leads : Relation.ReflTransGen (Calls schema) name other)
    (isLast : ∃ decl, inlinable? schema other = some decl) :
    ∃ decl, inlinable? schema name = some decl := by
  rcases Relation.ReflTransGen.cases_head leads with rfl | ⟨_, ⟨decl, _, defined, _⟩, _⟩
  · exact isLast
  · exact ⟨decl, defined⟩

theorem Expr.inherited_invokes {schema : Schema} (good : String → Prop) :
    Inherited schema fun _ expr => ∀ name, expr.Invokes name → good name where
  object each name called := each name called.access
  operand each name called := each name called.unary
  left each name called := each name called.left
  right each name called := each name called.right
  argument notAuth notFuture given each name called :=
    each name (.argument notAuth notFuture given called)
  item listed each name called := each name (.item listed called)
  collection each name called := each name called.collection
  condition _ each name called := each name called.condition

theorem Expr.failsOnly_of_invokes {lowering : LowerContext} {expected : LowerError → Prop}
    (others : ∀ error, (∀ name, error ≠ .recursiveFunction name) → expected error) (expr : Expr)
    (scope : Scope)
    (inlines : ∀ name, expr.Invokes name → ∀ decl,
      Lower.inlinable? lowering.schema name = some decl → ∀ operands depth,
        FailsOnly expected (lowering.inline decl operands depth)) :
    FailsOnly expected (expr.lowerWith lowering scope) := by
  have unresolved (name : String) : expected (.unresolved name) := others _ (by simp)
  refine failsOnly_of_inherited (inherited_invokes _) ?_ ?_ ?_ ?_ expr scope inlines
  · exact fun error isOwn => others error fun name => (isOwn name).2
  · intro scope span _
    unfold Lower.this
    split
    · exact .ok _
    · exact .ofError (unresolved _)
  · intro scope name span _
    unfold Lower.reference
    split
    · split
      · exact .ok _
      · exact .ofError (unresolved _)
    · exact .ok _
    · exact .ok _
    · exact .ofError (unresolved _)
  · intro scope function given span parts notAuth notFuture each _
    unfold Lower.call
    split
    next decl defined => exact each _ (.call notAuth notFuture rfl) decl defined parts _
    next => exact .ok _

/-- The calls of a function lead to another one, which is inlined already or calls itself. -/
structure Lower.RunsInto (schema : Schema) (inlined : List String) (name recursive : String) :
    Prop where
  leads : Relation.ReflTransGen (Calls schema) name recursive
  again : recursive ∈ inlined ∨ Relation.TransGen (Calls schema) recursive recursive

theorem Lower.RunsInto.of_calls {schema : Schema} {inlined : List String}
    {name callee recursive : String} (calls : Calls schema name callee)
    (inner : RunsInto schema (name :: inlined) callee recursive) :
    RunsInto schema inlined name recursive where
  leads := .head calls inner.leads
  again := by
    rcases inner.again with known | cycle
    · rcases List.mem_cons.1 known with rfl | known
      · exact .inr (.head' calls inner.leads)
      · exact .inl known
    · exact .inr cycle

theorem Lower.failsOnly_inlineInside {schema : Schema} (fuel : Nat) :
    ∀ (inlined : List String) (base : Nat) (name : String) (decl : FunctionDecl)
      (operands : List Operand) (depth : Nat), inlinable? schema name = some decl →
      FailsOnly
        (fun error => ∀ recursive, error = .recursiveFunction recursive →
          RunsInto schema inlined name recursive)
        (inlineInside schema fuel inlined base decl operands depth) := by
  induction fuel with
  | zero =>
    intro inlined base name decl operands depth defined
    rw [inlineInside.eq_def]
    simp only [name_of_inlinable? defined]
    split
    next known =>
      refine .ofError ?_
      rintro recursive ⟨⟩
      exact ⟨.refl, .inl known⟩
    next =>
      refine .ofError ?_
      rintro recursive ⟨⟩
  | succ fuel ih =>
    intro inlined base name decl operands depth defined
    obtain ⟨body, isBody⟩ := Option.isSome_iff_exists.1 (symbol?_of_inlinable? defined).2
    rw [inlineInside.eq_def]
    simp only [name_of_inlinable? defined, isBody]
    split
    next known =>
      refine .ofError ?_
      rintro recursive ⟨⟩
      exact ⟨.refl, .inl known⟩
    next =>
      -- The error comes from a call of the body, which is inlined below the function itself.
      refine body.failsOnly_of_invokes
        (fun error other recursive same => absurd same (other _)) _ ?_
      intro callee called inner isInner operands depth error failed recursive same
      have below := ih _ _ callee inner operands depth isInner error failed recursive same
      exact below.of_calls ⟨decl, body, defined, isBody, called⟩

theorem Expr.meetsCycle_of_lower {schema : Schema} {scope : Scope} {expr : Expr} {name : String}
    (failed : expr.lower schema scope = .error (.recursiveFunction name)) :
    expr.MeetsCycle schema name := by
  have only : FailsOnly
      (fun error => ∀ recursive, error = .recursiveFunction recursive →
        expr.MeetsCycle schema recursive)
      (expr.lower schema scope) := by
    refine .bind (expr.failsOnly_of_invokes (fun error other recursive same => ?_) scope ?_)
      fun operand _ => .ok _
    · exact absurd same (other _)
    · intro first called decl defined operands depth error failed recursive same
      have below := Lower.failsOnly_inlineInside _ [] 0 first decl operands depth defined error
        failed recursive same
      exact ⟨⟨first, called, below.leads⟩, below.again.resolve_left List.not_mem_nil⟩
  exact only _ failed name rfl

theorem Lower.declared_of_cycle {document : Document} {name : String}
    (cycle : Relation.TransGen (Calls (.ofDocument document)) name name) :
    ∃ decl ∈ document.functions, decl.name.name = name ∧ decl.body.isSome = true := by
  obtain ⟨callee, ⟨decl, body, defined, _⟩, _⟩ := Relation.TransGen.head'_iff.1 cycle
  exact ⟨decl, declared_of_inlinable? defined⟩

theorem Expr.Invokes.inlined_of_lowerWith {lowering : LowerContext} {expr : Expr} {name : String}
    {decl : FunctionDecl} (called : expr.Invokes name)
    (defined : Lower.inlinable? lowering.schema name = some decl) :
    ∀ {scope operand}, expr.lowerWith lowering scope = .ok operand →
      ∃ operands depth result, lowering.inline decl operands depth = .ok result := by
  -- Along the way down to the call: whatever is lowered, its parts were lowered before.
  induction called with
  | access _ ih =>
    intro scope operand lowered
    obtain ⟨_, inner, _⟩ := Except.bind_eq_ok.1 lowered
    exact ih inner
  | @unary op _ _ _ ih =>
    intro scope operand lowered
    cases op with
    | negate | not =>
      obtain ⟨_, inner, _⟩ := Except.bind_eq_ok.1 lowered
      exact ih inner
  | left _ ih =>
    intro scope operand lowered
    cases lowers_of_lowerWith lowered with
    | arithmetic _ first | comparison _ _ first | logical _ _ first => exact ih first
  | right _ ih =>
    intro scope operand lowered
    cases lowers_of_lowerWith lowered with
    | arithmetic _ _ second | comparison _ _ _ second | logical _ _ _ second => exact ih second
  | call notAuth notFuture named =>
    intro scope operand lowered
    subst named
    rw [lowerWith_call _ _ _ _ notAuth notFuture] at lowered
    obtain ⟨operands, _, inlined⟩ := Except.bind_eq_ok.1 lowered
    simp only [Lower.call, defined] at inlined
    exact ⟨_, _, _, inlined⟩
  | argument notAuth notFuture given _ ih =>
    intro scope operand lowered
    rw [lowerWith_call _ _ _ _ notAuth notFuture] at lowered
    obtain ⟨operands, each, _⟩ := Except.bind_eq_ok.1 lowered
    obtain ⟨_, inner⟩ := Argument.lowered_of_lowerAllWith each _ given
    exact ih inner
  | item listed _ ih =>
    intro scope operand lowered
    obtain ⟨operands, each, _⟩ := Except.bind_eq_ok.1 lowered
    obtain ⟨_, inner⟩ := Expr.lowered_of_lowerAllWith each _ listed
    exact ih inner
  | collection _ ih =>
    intro scope operand lowered
    cases lowers_of_lowerWith lowered with
    | quantified _ outside => exact ih outside
  | condition _ ih =>
    intro scope operand lowered
    cases lowers_of_lowerWith lowered with
    | quantified _ _ inside => exact ih inside

def Lower.InlinesWithin (schema : Schema) (inlined : List String) (name : String) : Prop :=
  ∃ decl, inlinable? schema name = some decl ∧ ∃ fuel base operands depth result,
    inlineInside schema fuel inlined base decl operands depth = .ok result

namespace Lower.InlinesWithin

variable {schema : Schema} {inlined : List String} {name callee other : String}

theorem fresh (inlines : InlinesWithin schema inlined name) : name ∉ inlined := by
  obtain ⟨decl, defined, fuel, base, operands, depth, result, lowered⟩ := inlines
  exact name_of_inlinable? defined ▸ (inlineInside_eq_ok.1 lowered).1

theorem step (inlines : InlinesWithin schema inlined name) (calls : Calls schema name callee)
    {inner : FunctionDecl} (isInner : inlinable? schema callee = some inner) :
    InlinesWithin schema (name :: inlined) callee := by
  obtain ⟨decl, defined, fuel, base, operands, depth, result, lowered⟩ := inlines
  obtain ⟨_, body, same, isBody, called⟩ := calls
  cases Option.some.inj (same.symm.trans defined)
  obtain ⟨_, rest, _, _, isSame, lowered⟩ := inlineInside_eq_ok.1 lowered
  cases Option.some.inj (isSame.symm.trans isBody)
  rw [name_of_inlinable? defined] at lowered
  obtain ⟨operands, depth, result, inlined⟩ := called.inlined_of_lowerWith isInner lowered
  exact ⟨inner, isInner, rest, _, operands, depth, result, inlined⟩

theorem run (leads : Relation.ReflTransGen (Calls schema) name other)
    (isLast : ∃ decl, inlinable? schema other = some decl) :
    ∀ {inlined}, InlinesWithin schema inlined name →
      ∃ more, inlined ⊆ more ∧ InlinesWithin schema more other := by
  induction leads using Relation.ReflTransGen.head_induction_on with
  | refl => exact fun inlines => ⟨_, List.Subset.refl _, inlines⟩
  | head calls rest ih =>
    intro inlined inlines
    obtain ⟨inner, isInner⟩ := defined_of_leads rest isLast
    obtain ⟨more, subset, reached⟩ := ih (inlines.step calls isInner)
    exact ⟨more, fun name found => subset (List.mem_cons_of_mem _ found), reached⟩

theorem acyclic (inlines : InlinesWithin schema inlined name) :
    ¬Relation.TransGen (Calls schema) name name := by
  intro cycle
  obtain ⟨callee, calls, rest⟩ := Relation.TransGen.head'_iff.1 cycle
  have isLast : ∃ decl, inlinable? schema name = some decl := by
    obtain ⟨decl, defined, _⟩ := inlines
    exact ⟨decl, defined⟩
  obtain ⟨inner, isInner⟩ := defined_of_leads rest isLast
  -- The way back to the function would inline it into itself.
  obtain ⟨more, subset, again⟩ := run rest isLast (inlines.step calls isInner)
  exact again.fresh (subset List.mem_cons_self)

end Lower.InlinesWithin

theorem Expr.MeetsCycle.lower_ne_ok {schema : Schema} {scope : Scope} {expr : Expr} {name : String}
    (meets : expr.MeetsCycle schema name) (predicate : Predicate) :
    expr.lower schema scope ≠ .ok predicate := by
  intro lowered
  obtain ⟨operand, lowered, _⟩ := Except.bind_eq_ok.1 lowered
  obtain ⟨first, called, leads⟩ := meets.reached
  have isLast : ∃ decl, Lower.inlinable? schema name = some decl := by
    obtain ⟨_, ⟨decl, _, defined, _⟩, _⟩ := Relation.TransGen.head'_iff.1 meets.cycle
    exact ⟨decl, defined⟩
  obtain ⟨decl, defined⟩ := Lower.defined_of_leads leads isLast
  obtain ⟨operands, depth, result, inlined⟩ := called.inlined_of_lowerWith defined lowered
  obtain ⟨_, _, inlines⟩ :=
    Lower.InlinesWithin.run leads isLast ⟨decl, defined, _, _, operands, depth, result, inlined⟩
  exact inlines.acyclic meets.cycle

section

variable {schema : Schema} {base : Nat} {arguments : List Operand}
  {first second : FunctionDecl → List Operand → Nat → Except LowerError Operand}

theorem Expr.lowerAllWith_congr {left right : LowerContext} {scope : Scope} {items : List Expr}
    (each : ∀ item ∈ items, item.lowerWith left scope = item.lowerWith right scope) :
    Expr.lowerAllWith left scope items = Expr.lowerAllWith right scope items := by
  induction items with
  | nil => rfl
  | cons item rest ih =>
    have split := List.forall_mem_cons.1 each
    rw [lowerAllWith, lowerAllWith, split.1, ih split.2]

theorem Argument.lowerAllWith_congr {left right : LowerContext} {scope : Scope}
    {given : List Argument}
    (each : ∀ argument ∈ given,
      argument.value.lowerWith left scope = argument.value.lowerWith right scope) :
    Argument.lowerAllWith left scope given = Argument.lowerAllWith right scope given := by
  induction given with
  | nil => rfl
  | cons argument rest ih =>
    have split := List.forall_mem_cons.1 each
    cases argument with
    | positional value | named name value =>
      have head : value.lowerWith left scope = value.lowerWith right scope := split.1
      rw [lowerAllWith, lowerAllWith, head, ih split.2]

theorem Lower.call_congr {scope : Scope} {name : String} {operands : List Operand}
    (same : ∀ name decl, inlinable? schema name = some decl → first decl = second decl) :
    Lower.call ⟨schema, base, arguments, first⟩ scope name operands =
      Lower.call ⟨schema, base, arguments, second⟩ scope name operands := by
  unfold Lower.call
  cases defined : inlinable? schema name with
  | none => rfl
  | some decl => simp only [same name decl defined]

theorem Expr.lowerWith_congr
    (same : ∀ name decl, Lower.inlinable? schema name = some decl → first decl = second decl)
    (expr : Expr) : ∀ scope,
      expr.lowerWith ⟨schema, base, arguments, first⟩ scope =
        expr.lowerWith ⟨schema, base, arguments, second⟩ scope := by
  induction expr using Expr.inductionOn with
  | literal | this | reference => exact fun _ => rfl
  | access object member span ih =>
    intro scope
    rw [lowerWith, lowerWith, ih]
  | unary op operand span ih =>
    intro scope
    cases op with
    | negate | not => rw [lowerWith, lowerWith, ih]
  | binary op left right span leftIh rightIh =>
    intro scope
    rw [lowerWith, lowerWith, leftIh, rightIh]
  | call function given span ih =>
    intro scope
    by_cases isAuth : function.name = "auth"
    · rw [lowerWith_auth _ _ _ _ isAuth, lowerWith_auth _ _ _ _ isAuth]
    by_cases isFuture : function.name = "future"
    · rw [lowerWith_future _ _ _ _ isFuture, lowerWith_future _ _ _ _ isFuture]
    rw [lowerWith_call _ _ _ _ isAuth isFuture, lowerWith_call _ _ _ _ isAuth isFuture,
      Argument.lowerAllWith_congr fun argument found => ih argument found scope]
    congr 1
    exact funext fun operands => Lower.call_congr same
  | list items span ih =>
    intro scope
    rw [lowerWith, lowerWith, Expr.lowerAllWith_congr fun item found => ih item found scope]
  | quantified collection quantifier condition span collectionIh conditionIh =>
    intro scope
    rw [lowerWith, lowerWith, collectionIh]
    simp only [conditionIh]

end

/--
Inline a call as `inlineInside` does, but with at most `levels` bodies inside each other: `cut`
stands for the bodies that are deeper.
-/
def Lower.inlineUpTo (schema : Schema)
    (cut : List String → Nat → FunctionDecl → List Operand → Nat → Except LowerError Operand) :
    Nat → List String → Nat → FunctionDecl → List Operand → Nat → Except LowerError Operand
  | levels, inlined, base, decl, arguments, depth =>
      let name := decl.name.name
      if name ∈ inlined then .error (.recursiveFunction name)
      else
        match decl.body, levels with
        | none, _ => .error (.unresolved name)
        | some _, 0 => cut inlined base decl arguments depth
        | some body, levels + 1 =>
            body.lowerWith
              ⟨schema, base + depth, arguments,
                Lower.inlineUpTo schema cut levels (name :: inlined) (base + depth)⟩
              [.function decl.params]

def Expr.lowerUpTo (schema : Schema)
    (cut : List String → Nat → FunctionDecl → List Operand → Nat → Except LowerError Operand)
    (levels : Nat) (scope : Scope) (expr : Expr) : Except LowerError Predicate := do
  let operand ← expr.lowerWith ⟨schema, 0, [], Lower.inlineUpTo schema cut levels [] 0⟩ scope
  .ok (Lower.asPredicate expr operand)

section

variable {schema : Schema}
  {cut : List String → Nat → FunctionDecl → List Operand → Nat → Except LowerError Operand}

theorem Lower.inlineUpTo_eq_inlineInside (levels : Nat) :
    ∀ (fuel : Nat) (inlined : List String) (base : Nat) (name : String) (decl : FunctionDecl),
      inlined.Nodup → inlined ⊆ schema.symbols.symbols.map Symbol.name →
      schema.symbols.symbols.length < levels + inlined.length →
      schema.symbols.symbols.length < fuel + inlined.length →
      inlinable? schema name = some decl →
        inlineUpTo schema cut levels inlined base decl =
          inlineInside schema fuel inlined base decl := by
  -- The functions that are inlined inside each other are different symbols, so that neither the
  -- levels nor the fuel end before a function is met again.
  have short {inlined : List String} (distinct : inlined.Nodup)
      (known : inlined ⊆ schema.symbols.symbols.map Symbol.name) :
      inlined.length ≤ schema.symbols.symbols.length := by
    simpa using distinct.length_le_of_subset known
  induction levels with
  | zero =>
    intro fuel inlined base name decl distinct known enough _ _
    have := short distinct known
    omega
  | succ levels ih =>
    intro fuel inlined base name decl distinct known enough fuelled defined
    obtain ⟨fuel, rfl⟩ : ∃ rest, fuel = rest + 1 := by
      have := short distinct known
      exact ⟨fuel - 1, by omega⟩
    obtain ⟨body, isBody⟩ := Option.isSome_iff_exists.1 (symbol?_of_inlinable? defined).2
    funext arguments depth
    rw [inlineUpTo.eq_def, inlineInside.eq_def]
    simp only [isBody]
    split
    next => rfl
    next fresh =>
      refine body.lowerWith_congr (fun callee inner isInner => ?_) _
      refine ih fuel _ _ callee inner (List.nodup_cons.2 ⟨fresh, distinct⟩) ?_ ?_ ?_ isInner
      · exact List.cons_subset.2 ⟨name_mem_of_inlinable? defined, known⟩
      · rw [List.length_cons]
        omega
      · rw [List.length_cons]
        omega

theorem Expr.lowerUpTo_eq_lower {levels : Nat} (scope : Scope) (expr : Expr)
    (enough : schema.symbols.symbols.length < levels) :
    expr.lowerUpTo schema cut levels scope = expr.lower schema scope := by
  have same (name : String) (decl : FunctionDecl)
      (defined : Lower.inlinable? schema name = some decl) :
      Lower.inlineUpTo schema cut levels [] 0 decl =
        Lower.inlineInside schema (schema.symbols.symbols.length + 1) [] 0 decl :=
    Lower.inlineUpTo_eq_inlineInside levels _ [] 0 name decl List.nodup_nil (List.nil_subset _)
      (by simpa using enough) (by simp) defined
  rw [lowerUpTo, lower, expr.lowerWith_congr same]
  rfl

end

/--
No expression is lowered with more bodies inside each other than there are symbols, whatever stands
for the deeper ones. A function is reported as recursive only if it lies on a cycle that the calls
of the expression lead to, and an expression whose calls lead to a cycle is not lowered.
-/
theorem Expr.lower_guards_recursion (document : Document) (scope : Scope) (expr : Expr) :
    (∀ cut levels, (Schema.ofDocument document).symbols.symbols.length < levels →
      expr.lowerUpTo (.ofDocument document) cut levels scope =
        expr.lower (.ofDocument document) scope) ∧
    (∀ name, expr.lower (.ofDocument document) scope = .error (.recursiveFunction name) →
      (∃ decl ∈ document.functions, decl.name.name = name ∧ decl.body.isSome = true) ∧
        expr.MeetsCycle (.ofDocument document) name) ∧
    ∀ name, expr.MeetsCycle (.ofDocument document) name →
      ∀ predicate, expr.lower (.ofDocument document) scope ≠ .ok predicate := by
  refine ⟨fun cut levels enough => expr.lowerUpTo_eq_lower scope enough, ?_, ?_⟩
  · intro name failed
    have meets := meetsCycle_of_lower failed
    exact ⟨Lower.declared_of_cycle meets.cycle, meets⟩
  · exact fun name meets predicate => meets.lower_ne_ok predicate

namespace Parity

open Library Blog

def item : Model := model "Item" [key]

def call (name : String) (argument : Expr) : Expr :=
  .call (ident name) [.positional argument] Span.zero

def number (text : String) : Expr := .literal (.number text) Span.zero

def before : Expr := .binary .sub (reference "n") (number "1") Span.zero

def function (name : String) (body : Expr) : FunctionDecl :=
  ⟨ident name, [⟨ident "n", int⟩], boolean, some body, Span.zero⟩

/-- `function isEven(n: Int): Boolean { n == 0 || isOdd(n - 1) }` -/
def isEven : FunctionDecl :=
  function "isEven"
    (.binary .or (.binary .eq (reference "n") (number "0") Span.zero) (call "isOdd" before)
      Span.zero)

/-- `function isOdd(n: Int): Boolean { n != 0 && isEven(n - 1) }` -/
def isOdd : FunctionDecl :=
  function "isOdd"
    (.binary .and (.binary .ne (reference "n") (number "0") Span.zero) (call "isEven" before)
      Span.zero)

/-- `function pred(n: Int): Int { n - 1 }` -/
def pred : FunctionDecl := ⟨ident "pred", [⟨ident "n", int⟩], int, some before, Span.zero⟩

def document : Document :=
  ⟨[.model item, .function isEven, .function isOdd, .function pred]⟩

def schema : Schema := .ofDocument document

def even : Expr := call "isEven" (reference "id")

def nested : Expr := call "pred" (call "pred" (reference "id"))

def positive : Expr := .binary .gt nested (number "0") Span.zero

end Parity

/-- Functions that call each other are reported, and not one that stands in its own argument. -/
theorem Parity.lower_even :
    even.lower schema [.record item] = .error (.recursiveFunction "isEven") ∧
      even.MeetsCycle schema "isEven" ∧
      (∀ predicate, even.lower schema [.record item] ≠ .ok predicate) ∧
      positive.lower schema [.record item] =
        .ok (.comparison .gt
          (.arithmetic .sub (.arithmetic .sub (.field 0 ["id"]) (.value (.int 1)))
            (.value (.int 1)))
          (.value (.int 0))) := by
  have failed : even.lower schema [.record item] = .error (.recursiveFunction "isEven") := rfl
  have guarded := Expr.lower_guards_recursion document [.record item] even
  have meets := (guarded.2.1 "isEven" failed).2
  exact ⟨failed, meets, guarded.2.2 "isEven" meets, rfl⟩

end Schemata
