import Schemata.Proofs.Lowering.Simulation
import Schemata.Proofs.Schema.Symbols
import Schemata.Validation

set_option autoImplicit false

namespace Schemata

section

variable {schema : Schema} {context : EvalContext}

theorem FunctionDecl.keepsArguments_iff {decl : FunctionDecl} {body : Expr} {depth : Nat}
    {arguments : List Operand} (defined : decl.body = some body) :
    decl.keepsArguments schema depth arguments = true ↔
      ∀ index ∈ body.paramsRead schema true [.function decl.params], ∀ operand,
        arguments[index]? = some operand → operand.readsBelow depth = true := by
  simp [keepsArguments, defined, Option.all_eq_true]

theorem FunctionDecl.paramsDenote {decl : FunctionDecl} {body : Expr} {arguments : List Operand}
    {around : List Json} {inline : FunctionDecl → List Operand → Nat → Except LowerError Operand}
    (defined : decl.body = some body)
    (keeps : decl.keepsArguments schema around.length arguments = true) :
    body.ParamsDenote ⟨schema, around.length, arguments, inline⟩ context around
      [.function decl.params (arguments.map (Operand.evalIn context around))] := by
  -- A body stands in one frame only, which holds the results of the arguments.
  have result {frame index : Nat} {name : String} {param : FunctionParam} {operand : Operand}
      (found : Scope.lookup? schema name [.function decl.params] =
        some (.param frame index param))
      (argument : arguments[index]? = some operand) :
      Stack.resultAt [.function decl.params (arguments.map (Operand.evalIn context around))]
        frame index = operand.evalIn context around := by
    have bottom : frame = 0 := by
      have below := Scope.frame_lt_of_lookup? found rfl
      simpa using below
    simp [Stack.resultAt, Stack.layerAt?, Layer.results, bottom, argument]
  constructor
  · intro index _ name frame param operand found argument
    rw [result found argument]
    simp [Stack.values, Layer.value?]
  · -- Below elements of the body, the argument reads nothing of them.
    intro index read more name frame param operand found argument
    have below := (keepsArguments_iff defined).1 keeps index read operand argument
    rw [result found argument]
    have same := (evalIn_shared_and context around).2 operand below more []
    simpa [Stack.values, Layer.value?] using same

theorem Lower.inlineInside_eq_ok {fuel : Nat} {inlined : List String} {base depth : Nat}
    {decl : FunctionDecl} {arguments : List Operand} {operand : Operand} :
    inlineInside schema fuel inlined base decl arguments depth = .ok operand ↔
      decl.name.name ∉ inlined ∧ ∃ rest body, fuel = rest + 1 ∧ decl.body = some body ∧
        body.lowerWith
          ⟨schema, base + depth, arguments,
            inlineInside schema rest (decl.name.name :: inlined) (base + depth)⟩
          [.function decl.params] = .ok operand := by
  rw [inlineInside.eq_def]
  by_cases known : decl.name.name ∈ inlined
  · simp [known]
  · cases fuel with
    | zero => simp [known]
    | succ rest => cases defined : decl.body <;> simp [known, defined]

theorem Lower.inlineHygienic_eq_ok {fuel : Nat} {inlined : List String} {base depth : Nat}
    {decl : FunctionDecl} {arguments : List Operand} {operand : Operand} :
    inlineHygienic schema fuel inlined base decl arguments depth = .ok operand ↔
      decl.name.name ∉ inlined ∧ decl.keepsArguments schema (base + depth) arguments = true ∧
        ∃ rest body, fuel = rest + 1 ∧ decl.body = some body ∧
          body.lowerWith
            ⟨schema, base + depth, arguments,
              inlineHygienic schema rest (decl.name.name :: inlined) (base + depth)⟩
            [.function decl.params] = .ok operand := by
  rw [inlineHygienic.eq_def]
  by_cases known : decl.name.name ∈ inlined
  · simp [known]
  · by_cases keeps : decl.keepsArguments schema (base + depth) arguments = true
    · cases fuel with
      | zero => simp [known]
      | succ rest => cases defined : decl.body <;> simp [known, keeps, defined]
    · simp [known, keeps]

theorem Lower.inlines_hygienic (fuel : Nat) : ∀ (more : Nat) (inlined : List String) (base : Nat)
    (outer : List Operand), fuel ≤ more →
    LowerContext.Inlines ⟨schema, base, outer, inlineHygienic schema fuel inlined base⟩ context
      (Interpretation.applyInside schema context schema.agree more) := by
  -- The fuel counts the bodies that are inlined inside each other; each body needs the functions
  -- that it calls to inline with one less.
  induction fuel with
  | zero =>
    intro more inlined base outer _ decl arguments depth operand values lowered
    obtain ⟨_, _, rest, _, wrong, _⟩ := inlineHygienic_eq_ok.1 lowered
    cases wrong
  | succ fuel ih =>
    intro more inlined base outer enough decl arguments depth operand values lowered length
    obtain ⟨_, keeps, rest, body, same, defined, lowered⟩ := inlineHygienic_eq_ok.1 lowered
    cases same
    obtain ⟨more, rfl⟩ : ∃ rest, more = rest + 1 := ⟨more - 1, by omega⟩
    -- The values in scope at the call are those around the body.
    rw [← show values.length = base + depth from length] at lowered keeps
    have inner := ih more (decl.name.name :: inlined) values.length arguments (by omega)
    have value := Expr.evalIn_lowerWith inner rfl body
      [.function decl.params (arguments.map (Operand.evalIn context values))] operand
      (FunctionDecl.paramsDenote defined keeps) lowered
    rw [Interpretation.applyInside_succ defined]
    simpa [Stack.values, Layer.value?, LowerContext.meaning] using value

end

mutual

def Expr.calls : Expr → List String
  | .literal _ _ | .this _ | .reference _ _ => []
  | .access object _ _ => object.calls
  | .unary _ operand _ => operand.calls
  | .binary _ left right _ => left.calls ++ right.calls
  | .call function arguments _ => function.name :: Argument.callsOfAll arguments
  | .list items _ => Expr.callsOfAll items
  | .quantified collection _ condition _ => collection.calls ++ condition.calls

def Expr.callsOfAll : List Expr → List String
  | [] => []
  | item :: rest => item.calls ++ Expr.callsOfAll rest

def Argument.callsOfAll : List Argument → List String
  | [] => []
  | .positional value :: rest | .named _ value :: rest =>
      value.calls ++ Argument.callsOfAll rest

end

theorem Expr.mem_callsOfAll {items : List Expr} {item : Expr} (found : item ∈ items) :
    item.calls ⊆ Expr.callsOfAll items := by
  induction items with
  | nil => cases found
  | cons first rest ih =>
    rcases List.mem_cons.1 found with rfl | found
    · exact List.subset_append_left _ _
    · exact List.Subset.trans (ih found) (List.subset_append_right _ _)

theorem Argument.mem_callsOfAll {arguments : List Argument} {argument : Argument}
    (found : argument ∈ arguments) :
    argument.value.calls ⊆ Argument.callsOfAll arguments := by
  induction arguments with
  | nil => cases found
  | cons first rest ih =>
    have inner : first.value.calls ++ Argument.callsOfAll rest =
        Argument.callsOfAll (first :: rest) := by
      cases first <;> rfl
    rw [← inner]
    rcases List.mem_cons.1 found with rfl | found
    · exact List.subset_append_left _ _
    · exact List.Subset.trans (ih found) (List.subset_append_right _ _)

section

variable {schema : Schema} {base : Nat} {arguments : List Operand}
  {first second : FunctionDecl → List Operand → Nat → Except LowerError Operand}

/-- Whatever one way of inlining gives for the functions of some names, another one gives too. -/
def Lower.Refines (schema : Schema) (names : List String)
    (first second : FunctionDecl → List Operand → Nat → Except LowerError Operand) : Prop :=
  ∀ name ∈ names, ∀ decl, inlinable? schema name = some decl →
    ∀ arguments depth operand,
      first decl arguments depth = .ok operand → second decl arguments depth = .ok operand

theorem Lower.Refines.of_subset {names others : List String}
    (refines : Lower.Refines schema names first second) (subset : others ⊆ names) :
    Lower.Refines schema others first second :=
  fun name found => refines name (subset found)

theorem Lower.call_of_refines {scope : Scope} {name : String} {lowered : List Operand}
    {operand : Operand} (refines : Lower.Refines schema [name] first second)
    (result : Lower.call ⟨schema, base, arguments, first⟩ scope name lowered = .ok operand) :
    Lower.call ⟨schema, base, arguments, second⟩ scope name lowered = .ok operand := by
  unfold Lower.call at result ⊢
  cases found : inlinable? schema name with
  | none => simpa only [found] using result
  | some decl =>
    simp only [found] at result ⊢
    exact refines name (List.mem_singleton_self name) decl found _ _ _ result

theorem Expr.lowerAllWith_of_refines {scope : Scope} {items : List Expr} {operands : List Operand}
    (refines : Lower.Refines schema (Expr.callsOfAll items) first second)
    (each : ∀ item ∈ items, Lower.Refines schema item.calls first second → ∀ operand,
      item.lowerWith ⟨schema, base, arguments, first⟩ scope = .ok operand →
        item.lowerWith ⟨schema, base, arguments, second⟩ scope = .ok operand)
    (lowered : Expr.lowerAllWith ⟨schema, base, arguments, first⟩ scope items = .ok operands) :
    Expr.lowerAllWith ⟨schema, base, arguments, second⟩ scope items = .ok operands := by
  induction items generalizing operands with
  | nil => exact lowered
  | cons item rest ih =>
    obtain ⟨head, headLowered, lowered⟩ := Except.bind_eq_ok.1 lowered
    obtain ⟨others, othersLowered, lowered⟩ := Except.bind_eq_ok.1 lowered
    have here := each item List.mem_cons_self
      (refines.of_subset (List.subset_append_left _ _)) head headLowered
    have tail := ih (refines.of_subset (List.subset_append_right _ _))
      (fun other found => each other (List.mem_cons_of_mem _ found)) othersLowered
    rw [Expr.lowerAllWith, here, tail]
    exact lowered

theorem Argument.lowerAllWith_of_refines {scope : Scope} {given : List Argument}
    {operands : List Operand}
    (refines : Lower.Refines schema (Argument.callsOfAll given) first second)
    (each : ∀ argument ∈ given, Lower.Refines schema argument.value.calls first second →
      ∀ operand, argument.value.lowerWith ⟨schema, base, arguments, first⟩ scope = .ok operand →
        argument.value.lowerWith ⟨schema, base, arguments, second⟩ scope = .ok operand)
    (lowered : Argument.lowerAllWith ⟨schema, base, arguments, first⟩ scope given = .ok operands) :
    Argument.lowerAllWith ⟨schema, base, arguments, second⟩ scope given = .ok operands := by
  induction given generalizing operands with
  | nil => exact lowered
  | cons argument rest ih =>
    have head := each argument List.mem_cons_self
    have tail := fun other found => each other (List.mem_cons_of_mem _ found)
    cases argument with
    | positional value | named name value =>
      obtain ⟨operand, valueLowered, lowered⟩ := Except.bind_eq_ok.1 lowered
      obtain ⟨others, othersLowered, lowered⟩ := Except.bind_eq_ok.1 lowered
      have here := head (refines.of_subset (List.subset_append_left _ _)) operand valueLowered
      have others := ih (refines.of_subset (List.subset_append_right _ _)) tail othersLowered
      rw [Argument.lowerAllWith]
      simp only [Argument.value] at here
      rw [here, others]
      exact lowered

theorem Expr.lowerWith_of_refines (expr : Expr) :
    ∀ (scope : Scope) (operand : Operand), Lower.Refines schema expr.calls first second →
      expr.lowerWith ⟨schema, base, arguments, first⟩ scope = .ok operand →
        expr.lowerWith ⟨schema, base, arguments, second⟩ scope = .ok operand := by
  -- Inlining has a say in the case of a call only; elsewhere the parts are lowered alike.
  induction expr using Expr.inductionOn with
  | literal | this | reference => intro scope operand _ lowered; exact lowered
  | access object member span ih =>
    intro scope operand refines lowered
    obtain ⟨inner, objectLowered, lowered⟩ := Except.bind_eq_ok.1 lowered
    rw [Expr.lowerWith, ih scope inner refines objectLowered]
    exact lowered
  | unary op inner span ih =>
    intro scope operand refines lowered
    cases op with
    | negate | not =>
      obtain ⟨part, partLowered, lowered⟩ := Except.bind_eq_ok.1 lowered
      rw [Expr.lowerWith, ih scope part refines partLowered]
      exact lowered
  | binary op left right span leftIh rightIh =>
    intro scope operand refines lowered
    have leftRefines := refines.of_subset (List.subset_append_left _ _)
    have rightRefines := refines.of_subset (List.subset_append_right _ _)
    rw [Expr.lowerWith] at lowered ⊢
    split at lowered
    all_goals
      obtain ⟨head, headLowered, lowered⟩ := Except.bind_eq_ok.1 lowered
      obtain ⟨tail, tailLowered, lowered⟩ := Except.bind_eq_ok.1 lowered
      rw [leftIh scope head leftRefines headLowered, rightIh scope tail rightRefines tailLowered]
      exact lowered
  | call function given span ih =>
    intro scope operand refines lowered
    by_cases isAuth : function.name = "auth"
    · rwa [Expr.lowerWith_auth _ _ _ _ isAuth] at lowered ⊢
    by_cases isFuture : function.name = "future"
    · rwa [Expr.lowerWith_future _ _ _ _ isFuture] at lowered ⊢
    rw [Expr.lowerWith_call _ _ _ _ isAuth isFuture] at lowered ⊢
    obtain ⟨operands, givenLowered, lowered⟩ := Except.bind_eq_ok.1 lowered
    have each := Argument.lowerAllWith_of_refines
      (refines.of_subset (List.subset_cons_self _ _))
      (fun argument found inner part => ih argument found scope part inner) givenLowered
    have called := Lower.call_of_refines
      (refines.of_subset (List.cons_subset_cons _ (List.nil_subset _))) lowered
    rw [each]
    exact called
  | list items span ih =>
    intro scope operand refines lowered
    obtain ⟨operands, itemsLowered, lowered⟩ := Except.bind_eq_ok.1 lowered
    have each := Expr.lowerAllWith_of_refines refines
      (fun item found inner part => ih item found scope part inner) itemsLowered
    rw [Expr.lowerWith, each]
    exact lowered
  | quantified collection quantifier condition span collectionIh conditionIh =>
    intro scope operand refines lowered
    obtain ⟨model, element, lowered⟩ := Except.bind_eq_ok.1 lowered
    obtain ⟨items, collectionLowered, lowered⟩ := Except.bind_eq_ok.1 lowered
    obtain ⟨inner, conditionLowered, lowered⟩ := Except.bind_eq_ok.1 lowered
    have outside := collectionIh scope items
      (refines.of_subset (List.subset_append_left _ _)) collectionLowered
    have inside := conditionIh (.element model :: scope) inner
      (refines.of_subset (List.subset_append_right _ _)) conditionLowered
    simp only at element
    rw [Expr.lowerWith, element, outside]
    simp only [bind, Except.bind, inside]
    exact lowered

end

theorem Lower.inlineInside_of_hygienic {schema : Schema} (fuel : Nat) :
    ∀ {inlined : List String} {base : Nat} {decl : FunctionDecl} {arguments : List Operand}
      {depth : Nat} {operand : Operand},
      inlineHygienic schema fuel inlined base decl arguments depth = .ok operand →
        inlineInside schema fuel inlined base decl arguments depth = .ok operand := by
  induction fuel with
  | zero =>
    intro inlined base decl arguments depth operand lowered
    obtain ⟨_, _, rest, _, wrong, _⟩ := inlineHygienic_eq_ok.1 lowered
    cases wrong
  | succ fuel ih =>
    intro inlined base decl arguments depth operand lowered
    obtain ⟨known, _, rest, body, same, defined, lowered⟩ := inlineHygienic_eq_ok.1 lowered
    cases same
    -- Within the body, one way of inlining refines the other for calls of all names.
    refine inlineInside_eq_ok.2 ⟨known, fuel, body, rfl, defined, ?_⟩
    exact body.lowerWith_of_refines _ operand (fun _ _ _ _ _ _ _ => ih) lowered

/--
Decide whether a call inlines hygienically: neither its arguments nor those of the calls that the
body makes in turn lose their meaning.
-/
def Lower.isHygienic (schema : Schema) (fuel : Nat) (inlined : List String) (base : Nat)
    (decl : FunctionDecl) (arguments : List Operand) (depth : Nat) : Bool :=
  (inlineHygienic schema fuel inlined base decl arguments depth).isOk

theorem Lower.isHygienic_iff {schema : Schema} {fuel : Nat} {inlined : List String} {base : Nat}
    {decl : FunctionDecl} {arguments : List Operand} {depth : Nat} {operand : Operand}
    (lowered : inlineInside schema fuel inlined base decl arguments depth = .ok operand) :
    isHygienic schema fuel inlined base decl arguments depth = true ↔
      inlineHygienic schema fuel inlined base decl arguments depth = .ok operand := by
  unfold isHygienic
  cases hygienic : inlineHygienic schema fuel inlined base decl arguments depth with
  | error error => simp [Except.isOk, Except.toBool]
  | ok other =>
    -- Both ways of inlining succeed here, and so they agree on the operand.
    have same := inlineInside_of_hygienic fuel hygienic
    rw [lowered] at same
    cases same
    simp [Except.isOk, Except.toBool]

theorem Lower.inlinable?_ne {document : Document} {name : String} {decl : FunctionDecl}
    (defined : inlinable? (Schema.ofDocument document) name = some decl) :
    name ≠ "auth" ∧ name ≠ "future" := by
  unfold inlinable? at defined
  split at defined
  next origin =>
    -- Both are declared by the library, which a document cannot take a name from.
    constructor
    · rintro rfl
      have library := SymbolTable.origin?_auth document
      exact absurd (origin.symm.trans library) (by decide)
    · rintro rfl
      have library := SymbolTable.origin?_future document
      exact absurd (origin.symm.trans library) (by decide)
  next => cases defined

/--
A call of a function with a body evaluates to what the body evaluates to with each parameter fixed
to the value of its argument, wherever the call stands, if it inlines hygienically.
-/
theorem Expr.evalIn_inlinedCall {document : Document} {fuel more base : Nat}
    {inlined : List String} {outer operands : List Operand} {scope : Scope} {function : Ident}
    {arguments : List Argument} {span : Span} {decl : FunctionDecl} {operand : Operand}
    {context : EvalContext} {values results : List Json}
    (defined : Lower.inlinable? (Schema.ofDocument document) function.name = some decl)
    (lowered : (Expr.call function arguments span).lowerWith
      (.inside (Schema.ofDocument document) fuel inlined base outer) scope = .ok operand)
    (argumentsLowered : Argument.lowerAllWith
      (.inside (Schema.ofDocument document) fuel inlined base outer) scope arguments =
        .ok operands)
    (length : values.length = base + scope.valueDepth)
    (evaluated : Operand.evalEach context values operands = .ok results)
    (hygienic : Lower.isHygienic (Schema.ofDocument document) fuel inlined base decl operands
      scope.valueDepth = true)
    (enough : fuel ≤ more) :
    operand.evalIn context values =
      Interpretation.applyInside (Schema.ofDocument document) context
        (Schema.ofDocument document).agree more decl (results.map .ok) := by
  have names := Lower.inlinable?_ne defined
  rw [Expr.lowerWith_call _ _ _ _ names.1 names.2, argumentsLowered] at lowered
  have body : Lower.inlineInside (Schema.ofDocument document) fuel inlined base decl operands
      scope.valueDepth = .ok operand := by
    simpa [Lower.call, LowerContext.inside, defined, Except.bind] using lowered
  rw [← Operand.evalEach_eq_ok context values evaluated]
  exact Lower.inlines_hygienic fuel more inlined base outer enough decl operands
    scope.valueDepth operand values ((Lower.isHygienic_iff body).1 hygienic) length

namespace Blog

open Library

def reference (name : String) : Expr := .reference (ident name) Span.zero

def field (name : String) (type : TypeRef) (attributes : List Attribute) : Field :=
  ⟨ident name, type, attributes, Span.zero⟩

def model (name : String) (fields : List Field) : Model :=
  ⟨ident name, false, [], fields, [], Span.zero⟩

def key : Field := field "id" int [⟨ident "@id", [], Span.zero⟩]

/-- The owner of a post as `@relation(fields: [ownerId], references: [id])`. -/
def owner : Field :=
  field "owner" (optional (named "User")) [⟨ident "@relation",
    [.named (ident "fields") (.list [reference "ownerId"] Span.zero),
      .named (ident "references") (.list [reference "id"] Span.zero)], Span.zero⟩]

def user : Model := model "User" [key, field "posts" (list (named "Post")) []]

def post : Model :=
  model "Post" [key, field "published" boolean [], owner, field "ownerId" (optional int) []]

/-- `function everyPost(posts: Post[], flag: Boolean): Boolean { posts![flag] }` -/
def everyPost : FunctionDecl :=
  ⟨ident "everyPost", [⟨ident "posts", list (named "Post")⟩, ⟨ident "flag", boolean⟩], boolean,
    some (.quantified (reference "posts") .all (reference "flag") Span.zero), Span.zero⟩

def document : Document := ⟨[.model user, .model post, .function everyPost]⟩

def schema : Schema := Schema.ofDocument document

def fuel : Nat := schema.symbols.symbols.length + 1

/-- A user with one post that is published and one that is not. -/
def record : Json :=
  .object [("id", .int 1), ("posts", .array [
    .object [("id", .int 1), ("published", .bool false)],
    .object [("id", .int 2), ("published", .bool true)]])]

def context : EvalContext := ⟨record, none, none, ""⟩

def arguments (flag : Expr) : List Argument :=
  [.positional (reference "posts"), .positional flag]

def call (flag : Expr) : Expr :=
  .call (ident "everyPost") (arguments flag) Span.zero

def operands (flag : Expr) : List Operand :=
  (Argument.lowerAllWith (.outside schema) [.record user] (arguments flag)).toOption.getD []

def operand (flag : Expr) : Operand :=
  ((call flag).lowerWith (.outside schema) [.record user]).toOption.getD default

def values (flag : Expr) : List Json :=
  (Operand.evalEach context [record] (operands flag)).toOption.getD []

/-- The flag `posts?[published]`, which reads an element of its own. -/
def published : Expr :=
  .quantified (reference "posts") .any (reference "published") Span.zero

/-- The flag `id == 1`, which reads the user alone. -/
def first : Expr := .binary .eq (reference "id") (.literal (.number "1") Span.zero) Span.zero

end Blog

theorem Blog.everyPost_keeps_first :
    Lower.isHygienic schema fuel [] 0 everyPost (operands first) 1 = true ∧
      (operand first).evalIn context [record] =
        Interpretation.applyInside schema context schema.agree fuel everyPost
          ((values first).map .ok) := by
  have lowered : (call first).lowerWith (.inside schema fuel [] 0 []) [.record user] =
      .ok (operand first) := rfl
  have hygienic : Lower.isHygienic schema fuel [] 0 everyPost (operands first) 1 = true := by
    decide +kernel
  exact ⟨hygienic, Expr.evalIn_inlinedCall rfl lowered rfl rfl rfl hygienic (Nat.le_refl _)⟩

/-- Some post is published, so that every post satisfies the flag. The inlined call denies it. -/
theorem Blog.everyPost_captures_published :
    (document.validate .standard).isValid = true ∧
      Lower.isHygienic schema fuel [] 0 everyPost (operands published) 1 = false ∧
      (call published).lowerWith (.outside schema) [.record user] = .ok (operand published) ∧
      Argument.lowerAllWith (.outside schema) [.record user] (arguments published) =
        .ok (operands published) ∧
      Operand.evalEach context [record] (operands published) = .ok (values published) ∧
      (operand published).evalIn context [record] = .ok (.bool false) ∧
      Interpretation.applyInside schema context schema.agree fuel everyPost
        ((values published).map .ok) = .ok (.bool true) :=
  ⟨by decide +kernel, by decide +kernel, rfl, rfl, rfl, rfl, rfl⟩

end Schemata
