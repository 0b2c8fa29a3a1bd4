import Schemata.Proofs.Lowering.Inlining
import Schemata.Proofs.Lowering.Scoping
import Schemata.Proofs.Policy.Future

set_option autoImplicit false

namespace Schemata

def Schema.Shows (schema : Schema) (model : Model) (applied : Attribute) : Prop :=
  (∃ visible ∈ schema.attributes model, visible.applied = applied) ∨
    ∃ visible ∈ schema.fields model, applied ∈ visible.field.attributes

structure Rule.LoweredFrom (schema : Schema) (model : Model) (condition : Expr) (rule : Rule) :
    Prop where
  stated : ∃ applied, schema.Shows model applied ∧
    schema.argument? applied "condition" = some condition
  predicate : condition.lower schema [.record model] = .ok rule.predicate
  source : rule.source = condition.print

namespace Schema

variable {schema : Schema} {model : Model}

theorem argument?_of_rule? {applied : Attribute} {kind : RuleKind} {operations condition : Expr}
    (stated : schema.rule? applied = some (kind, operations, condition)) :
    schema.argument? applied "condition" = some condition := by
  simp only [rule?, argument?, Option.bind_eq_bind, Option.bind_eq_some_iff] at stated ⊢
  rcases stated with ⟨_, _, decl, known, bounds, bound, _, _, value, given, same⟩
  cases same
  exact ⟨decl, known, bounds, bound, given⟩

theorem loweredFrom_of_lowerRules {fieldLevel : Bool} (attributes : List Attribute) :
    ∀ rules, schema.lowerRules model fieldLevel attributes = .ok rules →
      (∀ applied ∈ attributes, schema.Shows model applied) →
        ∀ rule ∈ rules, ∃ condition, rule.LoweredFrom schema model condition := by
  induction attributes with
  | nil =>
    intro rules done _
    cases done
    exact nofun
  | cons applied rest ih =>
    intro rules done shown
    rcases Except.bind_eq_ok.1 done with ⟨first, here, done⟩
    rcases Except.bind_eq_ok.1 done with ⟨others, behind, done⟩
    cases done
    rw [List.forall_mem_cons] at shown
    refine List.forall_mem_append.2 ⟨fun rule found => ?_, ih others behind shown.2⟩
    -- The attribute states the only rule that there is here.
    cases Option.mem_toList.1 found
    unfold lowerRule at here
    split at here
    next => cases here
    next kind operations condition stated =>
      rcases Except.bind_eq_ok.1 here with ⟨predicate, lowered, here⟩
      cases here
      exact ⟨condition, ⟨applied, shown.1, argument?_of_rule? stated⟩, lowered, rfl⟩

theorem loweredFrom_of_lowerModel {policy : ModelPolicy}
    (done : schema.lowerModel model = .ok policy) {rule : Rule} (held : policy.Holds rule) :
    ∃ condition, rule.LoweredFrom schema model condition := by
  rcases Except.bind_eq_ok.1 done with ⟨rules, lowered, done⟩
  rcases Except.bind_eq_ok.1 done with ⟨entries, fieldsLowered, done⟩
  cases done
  rcases held with found | ⟨field, found⟩
  next =>
    refine loweredFrom_of_lowerRules _ rules lowered (fun applied listed => ?_) rule found
    rcases List.mem_map.1 listed with ⟨visible, seen, same⟩
    exact .inl ⟨visible, seen, same⟩
  next =>
    simp only [ModelPolicy.rulesOf] at found
    cases known : (NameMap.ofList entries).find? field with
    | none => simp [known] at found
    | some own =>
      rw [known] at found
      rcases lowerFieldRules_eq_ok _ entries fieldsLowered with ⟨_, _, each⟩
      rcases each _ (NameMap.mem_of_find?_ofList known) with ⟨_, visible, seen, _, ownLowered⟩
      exact loweredFrom_of_lowerRules _ own ownLowered
        (fun applied listed => .inr ⟨visible, seen, listed⟩) rule found

theorem mem_of_lowerModels (models : List Model) :
    ∀ entries, schema.lowerModels models = .ok entries → ∀ entry ∈ entries,
      ∃ model ∈ models, model.name.name = entry.1 ∧ schema.lowerModel model = .ok entry.2 := by
  induction models with
  | nil =>
    intro entries done
    cases done
    exact nofun
  | cons first rest ih =>
    intro entries done
    rcases Except.bind_eq_ok.1 done with ⟨policy, here, done⟩
    rcases Except.bind_eq_ok.1 done with ⟨others, behind, done⟩
    cases done
    refine List.forall_mem_cons.2 ⟨⟨first, List.mem_cons_self, rfl, here⟩, fun entry found => ?_⟩
    rcases ih others behind entry found with ⟨model, member, known⟩
    exact ⟨model, List.mem_cons_of_mem _ member, known⟩

theorem loweredFrom_of_bundle {bundle : Bundle} {name : String} {policy : ModelPolicy} {rule : Rule}
    (done : schema.bundle = .ok bundle) (found : bundle.model? name = some policy)
    (held : policy.Holds rule) :
    ∃ model ∈ schema.hierarchy.models, model.name.name = name ∧
      ∃ condition, rule.LoweredFrom schema model condition := by
  rcases Except.bind_eq_ok.1 done with ⟨entries, lowered, done⟩
  cases done
  have listed : (name, policy) ∈ entries := NameMap.mem_of_find?_ofList found
  rcases mem_of_lowerModels _ entries lowered _ listed with ⟨model, member, named, modelLowered⟩
  exact ⟨model, (List.mem_filter.1 member).1, named, loweredFrom_of_lowerModel modelLowered held⟩

end Schema

structure Predicate.KeepsScope (schema : Schema) (record : Model) (expr : Expr)
    (predicate : Predicate) : Prop where
  /-- The record is in scope, and below each `any` an element more. -/
  within : predicate.ScopedIn (expr.MayCall schema [.record record]) 1
  bound : ∀ context scope, predicate.eval context ≠ .error (.unboundScope scope)
  unknown : ∀ context name, predicate.eval context = .error (.unknownFunction name) →
    expr.MayCall schema [.record record] name ∧ ∀ known : ValueFunction, known.name ≠ name

theorem Predicate.keepsScope_of_lower {schema : Schema} {record : Model} {expr : Expr}
    {predicate : Predicate} (lowered : expr.lower schema [.record record] = .ok predicate) :
    predicate.KeepsScope schema record expr := by
  have within : predicate.ScopedIn (expr.MayCall schema [.record record]) 1 :=
    Expr.scopedIn_lower lowered
  refine ⟨within, fun context scope failed => ?_, fun context name failed => ?_⟩
  · exact within.failsOnly_eval context _ failed
  · have expected := within.failsOnly_eval context _ failed
    refine ⟨expected.1, fun known same => ?_⟩
    have none := List.find?_eq_none.1 expected.2 known (by cases known <;> decide)
    exact none (beq_iff_eq.2 same)

namespace Schema

/--
Predicates that are lowered on their own, and those of the rules of a bundle, keep to the values in
scope.
-/
theorem keepsScope_of_lower_and_bundle (schema : Schema) :
    (∀ name record expr predicate, schema.symbols.model? name = some record →
      schema.lower name expr = .ok predicate → predicate.KeepsScope schema record expr) ∧
    ∀ bundle name policy rule, schema.bundle = .ok bundle → bundle.model? name = some policy →
      policy.Holds rule → ∃ record ∈ schema.hierarchy.models, record.name.name = name ∧
        ∃ condition, rule.LoweredFrom schema record condition ∧
          rule.predicate.KeepsScope schema record condition := by
  constructor
  · intro name record expr predicate known lowered
    rcases lower_eq_ok known lowered with ⟨_, operand, operandLowered, rfl⟩
    apply Predicate.keepsScope_of_lower
    rw [Expr.lower, operandLowered]
    rfl
  · intro bundle name policy rule done found held
    rcases loweredFrom_of_bundle done found held with ⟨record, member, named, condition, source⟩
    exact ⟨record, member, named, condition, source,
      Predicate.keepsScope_of_lower source.predicate⟩

end Schema

namespace Forum

open Library Blog

/-- A function without a body, that nobody knows how to evaluate. -/
def judge : FunctionDecl :=
  ⟨ident "judge", [⟨ident "post", named "Post"⟩], boolean, none, Span.zero⟩

/-- `function good(posts: Post[]): Boolean { posts![judge(this)] }` -/
def good : FunctionDecl :=
  ⟨ident "good", [⟨ident "posts", list (named "Post")⟩], boolean,
    some (.quantified (reference "posts") .all
      (.call (ident "judge") [.positional (.this Span.zero)] Span.zero) Span.zero), Span.zero⟩

def isGood : Expr := .call (ident "good") [.positional (reference "posts")] Span.zero

/-- A user with the rule `@@allow('read', good(posts))`. -/
def author : Model :=
  { user with
    attributes := [⟨ident "@@allow", [.positional (.literal (.string "read") Span.zero),
      .positional isGood], Span.zero⟩] }

def document : Document := ⟨[.model author, .model post, .function judge, .function good]⟩

def schema : Schema := Schema.ofDocument document

def failures? : Option (List EvalError) := do
  let predicate ← (schema.lower "User" isGood).toOption
  let bundle ← schema.bundle.toOption
  let policy ← bundle.model? "User"
  let rule ← policy.rules.head?
  match predicate.eval context, rule.predicate.eval context with
  | .error first, .error second => some [first, second]
  | _, _ => none

end Forum

/-- The name of the failure is called in the body of a function that is inlined. -/
theorem Forum.keepsScope_isGood :
    (document.validate .standard).isValid = true ∧ schema.symbols.model? "User" = some author ∧
      ∃ predicate bundle policy rule, schema.lower "User" isGood = .ok predicate ∧
        predicate.eval Blog.context = .error (.unknownFunction "judge") ∧
        predicate.KeepsScope schema author isGood ∧
        schema.bundle = .ok bundle ∧ bundle.model? "User" = some policy ∧ policy.Holds rule ∧
        rule.predicate.eval Blog.context = .error (.unknownFunction "judge") ∧
        ∃ record ∈ schema.hierarchy.models, record.name.name = "User" ∧
          ∃ condition, rule.LoweredFrom schema record condition ∧
            rule.predicate.KeepsScope schema record condition := by
  have known : schema.symbols.model? "User" = some author := rfl
  have failing : failures? = some [.unknownFunction "judge", .unknownFunction "judge"] := by
    decide +kernel
  simp only [failures?, Option.bind_eq_bind, Option.bind_eq_some_iff, Except.toOption_eq_some]
    at failing
  rcases failing with ⟨predicate, lowered, bundle, done, policy, found, rule, listed, failing⟩
  split at failing
  next first second failed ruleFailed =>
    cases failing
    have held : policy.Holds rule := .inl (List.mem_of_head? listed)
    have both := Schema.keepsScope_of_lower_and_bundle schema
    exact ⟨by decide +kernel, known, predicate, bundle, policy, rule, lowered, failed,
      both.1 "User" author isGood predicate known lowered, done, found, held, ruleFailed,
      both.2 bundle "User" policy rule done found held⟩
  next => cases failing

end Schemata
