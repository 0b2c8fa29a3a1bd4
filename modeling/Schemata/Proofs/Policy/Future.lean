import Schemata.Proofs.Lowering.Future
import Schemata.Proofs.Policy.Bundle
import Schemata.Proofs.Policy.Conditions
import Schemata.Proofs.Policy.Decisions

/-!
# Who may see an update

Only rules that concern nothing but updates read the record after an update. So the answers about
other operations do not depend on that record, as long as no rule of an abstract model hides
`future()` from the check.
-/

set_option autoImplicit false

namespace Schemata

section

variable {operation : Operation} {context other : EvalContext} {rules : List Rule}

theorem Rule.anyHolds_congr
    (same : ∀ rule ∈ rules, rule.predicate.eval other = rule.predicate.eval context) :
    anyHolds other rules = anyHolds context rules :=
  anyM_congr same

theorem Rule.decide_congr {unguarded : Bool}
    (same : ∀ rule ∈ rules, rule.covers operation = true →
      rule.predicate.eval other = rule.predicate.eval context) :
    decide rules operation other unguarded = decide rules operation context unguarded := by
  have kinds (kind : RuleKind) : anyHolds other (ofKind rules operation kind) =
      anyHolds context (ofKind rules operation kind) := by
    refine anyHolds_congr fun rule found => ?_
    obtain ⟨listed, covers, _⟩ := mem_ofKind.1 found
    exact same rule listed covers
  have allows := kinds .allow
  unfold decide
  rw [kinds .deny]
  cases found : ofKind rules operation .allow with
  | nil => rfl
  | cons first rest =>
    rw [found] at allows
    simp only [allows]

theorem Rule.operations_ne_of_covers {rule : Rule} (notUpdate : operation ≠ .update)
    (covers : rule.covers operation = true) : rule.operations ≠ [.update] := by
  intro only
  rw [Rule.covers, only] at covers
  exact notUpdate (by simpa using covers)

end

def ModelPolicy.Holds (policy : ModelPolicy) (rule : Rule) : Prop :=
  rule ∈ policy.rules ∨ ∃ field, rule ∈ policy.rulesOf field

section

variable {α β : Type} {related : α → β → Prop} {lefts : List α} {rights : List β}

theorem exists_right_of_forall₂ (each : List.Forall₂ related lefts rights) :
    ∀ left ∈ lefts, ∃ right ∈ rights, related left right := by
  induction each with
  | nil => exact nofun
  | cons here _ ih =>
    refine List.forall_mem_cons.2 ⟨⟨_, List.mem_cons_self, here⟩, fun left found => ?_⟩
    obtain ⟨right, listed, there⟩ := ih left found
    exact ⟨right, List.mem_cons_of_mem _ listed, there⟩

theorem exists_left_of_forall₂ (each : List.Forall₂ related lefts rights) :
    ∀ right ∈ rights, ∃ left ∈ lefts, related left right :=
  exists_right_of_forall₂ each.flip

end

section

variable {document : Document} {options : ValidationOptions} {model : Model}
  {sources : List Model} {policy : ModelPolicy}

theorem ModelPolicy.StatedBy.source_of_rule (stated : policy.StatedBy document model sources)
    {rule : Rule} (held : policy.Holds rule) :
    ∃ source ∈ sources, ∃ fieldLevel applied, source.Declares fieldLevel applied ∧
      applied.isRule fieldLevel = true ∧
        rule.StatedBy (.ofDocument document) model fieldLevel applied := by
  rcases held with found | ⟨name, found⟩
  · obtain ⟨applied, listed, here⟩ := exists_left_of_forall₂ stated.rules rule found
    obtain ⟨declared, isRule⟩ := List.mem_filter.1 listed
    obtain ⟨source, member, declared⟩ := List.mem_flatMap.1 declared
    exact ⟨source, member, false, applied, declared, isRule, here⟩
  · unfold rulesOf at found
    cases known : policy.fieldRules.find? name with
    | none => simp [known] at found
    | some rules =>
      obtain ⟨_, field, declared, rfl⟩ := stated.guarded name rules known
      obtain ⟨applied, listed, here⟩ :=
        exists_left_of_forall₂ (stated.fieldRules field declared) rule found
      obtain ⟨attached, isRule⟩ := List.mem_filter.1 listed
      obtain ⟨source, member, own⟩ := List.mem_flatMap.1 declared
      exact ⟨source, member, true, applied, ⟨field, own, attached⟩, isRule, here⟩

theorem ModelPolicy.StatedBy.rule_of_source (stated : policy.StatedBy document model sources)
    {source : Model} (member : source ∈ sources) {fieldLevel : Bool} {applied : Attribute}
    (declared : source.Declares fieldLevel applied) (isRule : applied.isRule fieldLevel = true) :
    ∃ rule : Rule, rule.StatedBy (.ofDocument document) model fieldLevel applied := by
  cases fieldLevel with
  | false =>
    obtain ⟨rule, _, here⟩ := exists_right_of_forall₂ stated.rules applied
      (List.mem_filter.2 ⟨List.mem_flatMap.2 ⟨source, member, declared⟩, isRule⟩)
    exact ⟨rule, here⟩
  | true =>
    obtain ⟨field, own, attached⟩ := declared
    have rules := stated.fieldRules field (List.mem_flatMap.2 ⟨source, member, own⟩)
    obtain ⟨rule, _, here⟩ := exists_right_of_forall₂ rules applied
      (List.mem_filter.2 ⟨attached, isRule⟩)
    exact ⟨rule, here⟩

end

/-- Decide whether a rule that is not for updates alone hides `future()` from its check. -/
def Attribute.hidesFuture (schema : Schema) (model : Model) (fieldLevel : Bool)
    (applied : Attribute) : Bool :=
  applied.isRule fieldLevel && !schema.isUpdateOnly fieldLevel applied &&
    (schema.argument? applied "condition").any (Expr.hidesFuture schema [.record model])

def Model.hidesFuture (schema : Schema) (model : Model) : Bool :=
  model.attributes.any (Attribute.hidesFuture schema model false) ||
    model.fields.any fun field => field.attributes.any (Attribute.hidesFuture schema model true)

def Document.hidesFuture (document : Document) : Bool :=
  document.models.any fun base => base.isAbstract && base.hidesFuture (.ofDocument document)

section

variable {document : Document} {options : ValidationOptions} {schema : Schema} {model : Model}
  {fieldLevel : Bool} {applied : Attribute}

theorem Model.hidesFuture_of_declares (declared : model.Declares fieldLevel applied)
    (hides : applied.hidesFuture schema model fieldLevel = true) :
    model.hidesFuture schema = true := by
  rw [hidesFuture, Bool.or_eq_true]
  cases fieldLevel with
  | false => exact .inl (List.any_eq_true.2 ⟨applied, declared, hides⟩)
  | true =>
    obtain ⟨field, own, attached⟩ := declared
    exact .inr (List.any_eq_true.2 ⟨field, own, List.any_eq_true.2 ⟨applied, attached, hides⟩⟩)

theorem Document.hidesFuture_eq_false (shown : document.hidesFuture = false)
    (member : model ∈ document.models) (isAbstract : model.isAbstract = true)
    (declared : model.Declares fieldLevel applied) (isRule : applied.isRule fieldLevel = true)
    (notUpdate : (Schema.ofDocument document).isUpdateOnly fieldLevel applied = false)
    {condition : Expr}
    (given : (Schema.ofDocument document).argument? applied "condition" = some condition) :
    condition.hidesFuture (.ofDocument document) [.record model] = false := by
  refine Bool.eq_false_iff.2 fun hides => ?_
  have here : applied.hidesFuture (.ofDocument document) model fieldLevel = true := by
    simp [Attribute.hidesFuture, isRule, notUpdate, given, hides]
  refine Bool.false_ne_true (shown.symm.trans (List.any_eq_true.2 ⟨model, member, ?_⟩))
  rw [isAbstract, Model.hidesFuture_of_declares declared here]
  rfl

end

namespace Schema

variable {document : Document} {options : ValidationOptions} {bundle : Bundle} {text : String}

theorem policies_of_bundle (read : Document.read text = .ok document)
    (valid : (document.validate options).isValid = true)
    (done : (ofDocument document).bundle = .ok bundle) :
    (∀ model ∈ document.models, model.isAbstract = false → ∃ index policy,
      document.models[index]? = some model ∧ bundle.model? model.name.name = some policy ∧
        policy.StatedBy document model (Hierarchy.sources document.models index model)) ∧
    ∀ name policy, bundle.model? name = some policy →
      ∃ model ∈ document.models, model.isAbstract = false ∧ model.name.name = name := by
  have formed := Document.wellFormed_of_readWith read
  have unique : UniqueNames document.models :=
    Document.uniqueNames (document.clean_of_isValid valid .symbols)
  have inheritance : Clean (Hierarchy.check document.models) :=
    document.clean_of_isValid valid .inheritance
  obtain ⟨entries, lowered, done⟩ := Except.bind_eq_ok.1 done
  cases done
  have models : (ofDocument document).hierarchy.models = document.models :=
    Hierarchy.models_ofModels _
  rw [models] at lowered
  obtain ⟨names, complete⟩ := lowerModels_eq_ok _ entries lowered
  -- Models have different names, so that the map holds every entry.
  have distinct : (entries.map Prod.fst).Nodup := by
    rw [names]
    exact (List.filter_sublist.map _).nodup unique
  constructor
  · intro model member concrete
    obtain ⟨index, here⟩ := List.mem_iff_getElem?.1 member
    have sound : Lowerable document index model :=
      ⟨here, Hierarchy.sees_of_clean unique inheritance here,
        fun base member => Document.checked_of_isValid formed valid member⟩
    obtain ⟨policy, own, listed⟩ :=
      complete model (List.mem_filter.2 ⟨member, by simpa using concrete⟩)
    exact ⟨index, policy, here, (NameMap.find?_ofList_eq_some_iff distinct).2 listed,
      sound.lowerModel own⟩
  · intro name policy found
    have listed := (NameMap.find?_ofList_eq_some_iff distinct).1 found
    have key : name ∈ entries.map Prod.fst := List.mem_map_of_mem listed
    rw [names] at key
    obtain ⟨model, member, named⟩ := List.mem_map.1 key
    obtain ⟨member, concrete⟩ := List.mem_filter.1 member
    exact ⟨model, member, by simpa using concrete, named⟩

theorem mentionsFuture_of_bundle (read : Document.read text = .ok document)
    (valid : (document.validate options).isValid = true)
    (done : (ofDocument document).bundle = .ok bundle) (shown : document.hidesFuture = false)
    {source : Model} (member : source ∈ document.models) {fieldLevel : Bool} {applied : Attribute}
    (declared : source.Declares fieldLevel applied) (isRule : applied.isRule fieldLevel = true)
    (notUpdate : (ofDocument document).isUpdateOnly fieldLevel applied = false)
    {condition : Expr}
    (given : (ofDocument document).argument? applied "condition" = some condition) :
    condition.mentionsFuture = false := by
  obtain ⟨same, known, checked⟩ := document.isCondition_of_declares valid member declared isRule
  cases Option.some.inj (known.symm.trans given)
  have clean := checked.clean
  rw [notUpdate] at clean
  -- Where the declaring model is concrete, the condition was lowered in the scope of its check as
  -- well. Where it is abstract, nothing was hidden from the check.
  by_cases isAbstract : source.isAbstract = true
  next =>
    exact condition.mentionsFuture_eq_false _ clean
      (Document.hidesFuture_eq_false shown member isAbstract declared isRule notUpdate given)
  next =>
    obtain ⟨index, policy, _, _, stated⟩ :=
      (policies_of_bundle read valid done).1 source member (by simpa using isAbstract)
    have own : source ∈ Hierarchy.sources document.models index source :=
      List.mem_append_right _ (List.mem_singleton.2 rfl)
    obtain ⟨rule, here⟩ := stated.rule_of_source own declared isRule
    obtain ⟨other, givenToo, lowered, _⟩ := here.condition
    cases Option.some.inj (givenToo.symm.trans given)
    exact Expr.mentionsFuture_of_lower clean lowered

/--
Every rule that is not for updates alone ignores the record after an update, and so do the answers
about all other operations.
-/
theorem bundle_ignoresFuture (read : Document.read text = .ok document)
    (valid : (document.validate options).isValid = true)
    (done : (ofDocument document).bundle = .ok bundle) (shown : document.hidesFuture = false)
    {name : String} {policy : ModelPolicy} (found : bundle.model? name = some policy) :
    (∀ rule, policy.Holds rule → rule.operations ≠ [.update] →
      rule.predicate.ignoresFuture = true) ∧
    ∀ operation, operation ≠ .update → ∀ (context : EvalContext) (other : Option Json),
      policy.isAllowed operation { context with future := other } =
        policy.isAllowed operation context ∧
      ∀ field, policy.isFieldAllowed field operation { context with future := other } =
        policy.isFieldAllowed field operation context := by
  have ignores : ∀ rule, policy.Holds rule → rule.operations ≠ [.update] →
      rule.predicate.ignoresFuture = true := by
    intro rule held notUpdate
    obtain ⟨model, member, concrete, rfl⟩ := (policies_of_bundle read valid done).2 name policy found
    obtain ⟨index, known, here, same, stated⟩ :=
      (policies_of_bundle read valid done).1 model member concrete
    cases Option.some.inj (found.symm.trans same)
    obtain ⟨source, listed, fieldLevel, applied, declared, isRule, stated⟩ :=
      stated.source_of_rule held
    obtain ⟨condition, given, lowered, _⟩ := stated.condition
    have wide : (ofDocument document).isUpdateOnly fieldLevel applied = false :=
      Bool.eq_false_iff.2 fun only => notUpdate (stated.operations_of_isUpdateOnly only)
    have absent := mentionsFuture_of_bundle read valid done shown (Hierarchy.sources_subset here listed)
      declared isRule wide given
    exact Expr.ignoresFuture_lower valid absent lowered
  refine ⟨ignores, fun operation notUpdate context other => ?_⟩
  -- A rule that covers another operation than an update is not for updates alone.
  have same (rules : List Rule) (held : ∀ rule ∈ rules, policy.Holds rule) (unguarded : Bool) :
      Rule.decide rules operation { context with future := other } unguarded =
        Rule.decide rules operation context unguarded :=
    Rule.decide_congr fun rule listed covers => Predicate.eval_future context other
      (ignores rule (held rule listed) (Rule.operations_ne_of_covers notUpdate covers))
  refine ⟨same policy.rules (fun rule => .inl) false, fun field => ?_⟩
  rw [ModelPolicy.isFieldAllowed_eq_decide, ModelPolicy.isFieldAllowed_eq_decide]
  exact same (policy.rulesOf field) (fun rule listed => .inr ⟨field, listed⟩) true

def after (isOpen : Bool) : EvalContext :=
  ⟨.object [("open", .bool true)], none, some (.object [("open", .bool isOpen)]), ""⟩

def answers? (text : String) (operation : Operation) : Option (Bool × List (Option Bool)) := do
  let document ← (Document.read text).toOption
  let bundle ← (ofDocument document).bundle.toOption
  let policy ← bundle.model? "User"
  if (document.validate .standard).isValid then
    some (document.hidesFuture,
      [true, false].map fun isOpen => (policy.isAllowed operation (after isOpen)).toOption)
  else none

theorem answers?_eq_some {operation : Operation} {hides first second : Bool}
    (computed : answers? text operation = some (hides, [some first, some second])) :
    ∃ document bundle policy, Document.read text = .ok document ∧
      (document.validate .standard).isValid = true ∧
      (ofDocument document).bundle = .ok bundle ∧ bundle.model? "User" = some policy ∧
      document.hidesFuture = hides ∧ policy.isAllowed operation (after true) = .ok first ∧
      policy.isAllowed operation (after false) = .ok second := by
  simp only [answers?, Option.bind_eq_bind, Option.bind_eq_some_iff, Except.toOption_eq_some]
    at computed
  obtain ⟨document, read, bundle, done, policy, found, computed⟩ := computed
  split at computed
  next valid =>
    simp only [Option.some.injEq, Prod.mk.injEq, List.map_cons, List.map_nil, List.cons.injEq,
      Except.toOption_eq_some, and_true] at computed
    exact ⟨document, bundle, policy, read, valid, done, found, computed.1, computed.2.1,
      computed.2.2⟩
  next => cases computed

/-- An abstract model with a rule for reads, and one for updates that looks at the update. -/
def guarded : String :=
  "abstract model Owned\x7bid Int @id open Boolean @@allow('read',open)" ++
    "@@allow('update',future().open)\x7dmodel User extends Owned\x7bname String\x7d"

theorem bundle_ignoresFuture_guarded :
    ∃ document bundle policy, Document.read guarded = .ok document ∧
      (document.validate .standard).isValid = true ∧
      (ofDocument document).bundle = .ok bundle ∧ bundle.model? "User" = some policy ∧
      document.hidesFuture = false ∧
      ∀ context other, policy.isAllowed .read { context with future := other } =
        policy.isAllowed .read context := by
  have computed : answers? guarded .read = some (false, [some true, some true]) := by
    decide +kernel
  obtain ⟨document, bundle, policy, read, valid, done, found, shown, _⟩ := answers?_eq_some computed
  refine ⟨document, bundle, policy, read, valid, done, found, shown, fun context other => ?_⟩
  exact ((bundle_ignoresFuture read valid done shown found).2 .read (by decide) context other).1

/--
The list of the record and the principal is of any type at the abstract model, whose rule is
therefore checked without its condition. For users it is a list of users.
-/
def hidden : String :=
  "abstract model Owned\x7bid Int @id open Boolean @@allow('read',[this,auth()]?[future().open])" ++
    "\x7dmodel User extends Owned\x7bname String\x7d"

theorem isAllowed_hidden :
    ∃ document bundle policy, Document.read hidden = .ok document ∧
      (document.validate .standard).isValid = true ∧
      (ofDocument document).bundle = .ok bundle ∧ bundle.model? "User" = some policy ∧
      document.hidesFuture = true ∧ policy.isAllowed .read (after true) = .ok true ∧
      policy.isAllowed .read (after false) = .ok false :=
  answers?_eq_some (by decide +kernel)

end Schema

end Schemata
