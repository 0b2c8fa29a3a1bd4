import Schemata.Policy.Bundle

set_option autoImplicit false

namespace Schemata

section

variable {α ε : Type} {test : α → Except ε Bool} {items : List α}

theorem anyM_eq_ok_false_iff :
    items.anyM test = .ok false ↔ ∀ item ∈ items, test item = .ok false := by
  induction items with
  | nil => simp [pure, Except.pure]
  | cons first rest ih =>
    rw [List.anyM, List.forall_mem_cons]
    cases test first with
    | error error => simp [bind, Except.bind]
    | ok answer => cases answer <;> simp [bind, Except.bind, pure, Except.pure, ih]

theorem exists_of_anyM_eq_ok_true (found : items.anyM test = .ok true) :
    ∃ item ∈ items, test item = .ok true := by
  induction items with
  | nil => cases found
  | cons first rest ih =>
    rw [List.anyM] at found
    cases head : test first with
    | error error =>
      rw [head] at found
      cases found
    | ok answer =>
      cases answer with
      | true => exact ⟨first, List.mem_cons_self, head⟩
      | false =>
        rw [head] at found
        obtain ⟨item, member, holds⟩ := ih found
        exact ⟨item, List.mem_cons_of_mem _ member, holds⟩

theorem anyM_of_settled (settled : ∀ item ∈ items, ∃ answer, test item = .ok answer) :
    ∃ answer, items.anyM test = .ok answer := by
  induction items with
  | nil => exact ⟨false, rfl⟩
  | cons first rest ih =>
    obtain ⟨⟨head, tested⟩, others⟩ := List.forall_mem_cons.1 settled
    rw [List.anyM, tested]
    cases head with
    | true => exact ⟨true, rfl⟩
    | false => exact ih others

theorem anyM_eq_ok_true_iff (settled : ∀ item ∈ items, ∃ answer, test item = .ok answer) :
    items.anyM test = .ok true ↔ ∃ item ∈ items, test item = .ok true := by
  refine ⟨exists_of_anyM_eq_ok_true, fun ⟨item, member, holds⟩ => ?_⟩
  obtain ⟨answer, tested⟩ := anyM_of_settled settled
  cases answer with
  | true => exact tested
  | false =>
    have fails := anyM_eq_ok_false_iff.1 tested item member
    rw [holds] at fails
    cases fails

end

namespace Rule

section

variable (operation : Operation) (context : EvalContext) (rules : List Rule)

def Undenied : Prop :=
  ∀ rule ∈ rules, rule.covers operation = true → rule.kind = .deny →
    rule.predicate.eval context = .ok false

def Granted : Prop :=
  ∃ rule ∈ rules, rule.covers operation = true ∧ rule.kind = .allow ∧
    rule.predicate.eval context = .ok true

/-- Some rule allows the operation, whether it holds or not. -/
def Guarded : Prop := ∃ rule ∈ rules, rule.covers operation = true ∧ rule.kind = .allow

def Settled : Prop :=
  ∀ rule ∈ rules, rule.covers operation = true → ∃ answer, rule.predicate.eval context = .ok answer

end

variable {operation : Operation} {context : EvalContext} {rules others : List Rule}
  {unguarded : Bool}

theorem mem_ofKind {kind : RuleKind} {rule : Rule} :
    rule ∈ ofKind rules operation kind ↔
      rule ∈ rules ∧ rule.covers operation = true ∧ rule.kind = kind := by
  simp [ofKind]

theorem ofKind_insert_of_ne {kind : RuleKind} {rule : Rule} {before after : List Rule}
    (other : rule.kind ≠ kind) :
    ofKind (before ++ rule :: after) operation kind = ofKind (before ++ after) operation kind := by
  simp [ofKind, other]

theorem anyHolds_deny_iff :
    anyHolds context (ofKind rules operation .deny) = .ok false ↔
      Undenied operation context rules := by
  simp only [anyHolds, anyM_eq_ok_false_iff, mem_ofKind, Undenied, and_imp]

theorem ofKind_allow_eq_nil_iff : ofKind rules operation .allow = [] ↔ ¬ Guarded operation rules := by
  simp only [List.eq_nil_iff_forall_not_mem, mem_ofKind, Guarded, not_exists]

theorem granted_of_anyHolds (found : anyHolds context (ofKind rules operation .allow) = .ok true) :
    Granted operation context rules := by
  obtain ⟨rule, member, holds⟩ := exists_of_anyM_eq_ok_true found
  obtain ⟨known, covers, allows⟩ := mem_ofKind.1 member
  exact ⟨rule, known, covers, allows, holds⟩

theorem anyHolds_allow_iff (settled : Settled operation context rules) :
    anyHolds context (ofKind rules operation .allow) = .ok true ↔
      Granted operation context rules := by
  refine ⟨granted_of_anyHolds, fun ⟨rule, known, covers, allows, holds⟩ => ?_⟩
  refine (anyM_eq_ok_true_iff fun other member => ?_).2
    ⟨rule, mem_ofKind.2 ⟨known, covers, allows⟩, holds⟩
  obtain ⟨known, covers, _⟩ := mem_ofKind.1 member
  exact settled other known covers

theorem anyHolds_of_settled (settled : Settled operation context rules) (kind : RuleKind) :
    ∃ answer, anyHolds context (ofKind rules operation kind) = .ok answer := by
  refine anyM_of_settled fun rule member => ?_
  obtain ⟨known, covers, _⟩ := mem_ofKind.1 member
  exact settled rule known covers

theorem undenied_of_decide (permits : decide rules operation context unguarded = .ok true) :
    Undenied operation context rules := by
  refine anyHolds_deny_iff.1 ?_
  unfold decide at permits
  cases denies : anyHolds context (ofKind rules operation .deny) with
  | error error =>
    rw [denies] at permits
    cases permits
  | ok denied =>
    cases denied with
    | true =>
      rw [denies] at permits
      cases permits
    | false => rfl

theorem decide_of_guarded (undenied : Undenied operation context rules)
    (guarded : Guarded operation rules) :
    decide rules operation context unguarded =
      anyHolds context (ofKind rules operation .allow) := by
  unfold decide
  rw [anyHolds_deny_iff.2 undenied]
  cases allows : ofKind rules operation .allow with
  | nil => exact absurd guarded (ofKind_allow_eq_nil_iff.1 allows)
  | cons first rest => rfl

theorem decide_of_unguarded (undenied : Undenied operation context rules)
    (noGuard : ¬ Guarded operation rules) :
    decide rules operation context unguarded = .ok unguarded := by
  unfold decide
  rw [anyHolds_deny_iff.2 undenied, ofKind_allow_eq_nil_iff.2 noGuard]
  rfl

theorem granted_of_decide (guarded : Guarded operation rules)
    (permits : decide rules operation context unguarded = .ok true) :
    Granted operation context rules := by
  rw [decide_of_guarded (undenied_of_decide permits) guarded] at permits
  exact granted_of_anyHolds permits

def Permitted (operation : Operation) (context : EvalContext) (unguarded : Bool)
    (rules : List Rule) : Prop :=
  Undenied operation context rules ∧
    (Granted operation context rules ∨ unguarded = true ∧ ¬ Guarded operation rules)

theorem decide_eq_ok_true_iff (settled : Settled operation context rules) :
    decide rules operation context unguarded = .ok true ↔
      Permitted operation context unguarded rules := by
  by_cases guarded : Guarded operation rules
  next =>
    simp only [Permitted, guarded, not_true_eq_false, and_false, or_false]
    refine ⟨fun permits => ⟨undenied_of_decide permits, granted_of_decide guarded permits⟩,
      fun ⟨undenied, granted⟩ => ?_⟩
    rw [decide_of_guarded undenied guarded]
    exact (anyHolds_allow_iff settled).2 granted
  next =>
    have notGranted : ¬ Granted operation context rules :=
      fun ⟨rule, known, covers, allows, _⟩ => guarded ⟨rule, known, covers, allows⟩
    simp only [Permitted, guarded, notGranted, not_false_eq_true, and_true, false_or]
    constructor
    · intro permits
      have undenied := undenied_of_decide permits
      rw [decide_of_unguarded undenied guarded] at permits
      exact ⟨undenied, Except.ok.inj permits⟩
    · rintro ⟨undenied, rfl⟩
      exact decide_of_unguarded undenied guarded

theorem decide_of_settled (settled : Settled operation context rules) :
    ∃ answer, decide rules operation context unguarded = .ok answer := by
  obtain ⟨denied, denies⟩ := anyHolds_of_settled settled .deny
  obtain ⟨allowed, allows⟩ := anyHolds_of_settled settled .allow
  cases denied with
  | true => exact ⟨false, by simp [decide, denies, bind, Except.bind]⟩
  | false =>
    have undenied := anyHolds_deny_iff.1 denies
    by_cases guarded : Guarded operation rules
    next => exact ⟨allowed, (decide_of_guarded undenied guarded).trans allows⟩
    next => exact ⟨unguarded, decide_of_unguarded undenied guarded⟩

theorem decide_eq_ok_false (settled : Settled operation context rules)
    (refused : ¬ Permitted operation context unguarded rules) :
    decide rules operation context unguarded = .ok false := by
  obtain ⟨answer, decided⟩ : ∃ answer, decide rules operation context unguarded = .ok answer :=
    decide_of_settled settled
  cases answer with
  | true => exact absurd ((decide_eq_ok_true_iff settled).1 decided) refused
  | false => exact decided

theorem settled_perm (same : rules.Perm others) (settled : Settled operation context rules) :
    Settled operation context others :=
  fun rule member => settled rule (same.mem_iff.2 member)

theorem permitted_perm (same : rules.Perm others) :
    Permitted operation context unguarded rules ↔
      Permitted operation context unguarded others := by
  simp only [Permitted, Undenied, Granted, Guarded, same.mem_iff]

theorem decide_perm (same : rules.Perm others) (settled : Settled operation context rules) :
    decide others operation context unguarded = decide rules operation context unguarded := by
  have settledToo := settled_perm same settled
  by_cases permitted : Permitted operation context unguarded rules
  next =>
    rw [(decide_eq_ok_true_iff settled).2 permitted,
      (decide_eq_ok_true_iff settledToo).2 ((permitted_perm same).1 permitted)]
  next =>
    rw [decide_eq_ok_false settled permitted,
      decide_eq_ok_false settledToo fun other => permitted ((permitted_perm same).2 other)]

section

variable {rule : Rule} {before after : List Rule}

theorem undenied_of_insert (undenied : Undenied operation context (before ++ rule :: after)) :
    Undenied operation context (before ++ after) :=
  fun other member => undenied other (by simp_all [or_left_comm])

theorem guarded_insert (guarded : Guarded operation (before ++ after)) :
    Guarded operation (before ++ rule :: after) := by
  obtain ⟨other, member, covers, allows⟩ := guarded
  exact ⟨other, by simp_all [or_left_comm], covers, allows⟩

/-- A further rule that denies opens nothing, also where rules give errors. -/
theorem decide_of_insert_deny (denies : rule.kind = .deny)
    (permits : decide (before ++ rule :: after) operation context unguarded = .ok true) :
    decide (before ++ after) operation context unguarded = .ok true := by
  have undenied := undenied_of_decide permits
  have same : ofKind (before ++ rule :: after) operation .allow =
      ofKind (before ++ after) operation .allow :=
    ofKind_insert_of_ne (by simp [denies])
  rw [← permits]
  by_cases guarded : Guarded operation (before ++ after)
  next =>
    rw [decide_of_guarded undenied (guarded_insert guarded),
      decide_of_guarded (undenied_of_insert undenied) guarded, same]
  next =>
    have noGuard : ¬ Guarded operation (before ++ rule :: after) := by
      rw [← ofKind_allow_eq_nil_iff, same]
      exact ofKind_allow_eq_nil_iff.2 guarded
    rw [decide_of_unguarded undenied noGuard,
      decide_of_unguarded (undenied_of_insert undenied) guarded]

theorem decide_insert_allow (allows : rule.kind = .allow)
    (guarded : Guarded operation (before ++ after))
    (permits : decide (before ++ after) operation context unguarded = .ok true) :
    decide (before ++ rule :: after) operation context unguarded ≠ .ok false := by
  intro refused
  have undenied : Undenied operation context (before ++ rule :: after) := by
    rw [← anyHolds_deny_iff, ofKind_insert_of_ne (by simp [allows])]
    exact anyHolds_deny_iff.2 (undenied_of_decide permits)
  rw [decide_of_guarded undenied (guarded_insert guarded)] at refused
  -- The rule that grants the operation is still looked at, unless another one holds or errs first.
  obtain ⟨other, member, covers, allows, holds⟩ := granted_of_decide guarded permits
  have fails := anyM_eq_ok_false_iff.1 refused other
    (mem_ofKind.2 ⟨by simp_all [or_left_comm], covers, allows⟩)
  rw [holds] at fails
  cases fails

end

/--
The laws of decisions about an operation in which a rule that denies overrides all that allow.
They are laws of all policies whose rules are of a kind that `applies` tells.
-/
structure DenyOverrides (operation : Operation) (context : EvalContext)
    (applies : List Rule → Prop) (rulesOf : ModelPolicy → List Rule)
    (decision : ModelPolicy → Except EvalError Bool) : Prop where
  sound : ∀ policy, applies (rulesOf policy) → decision policy = .ok true →
    Undenied operation context (rulesOf policy) ∧ Granted operation context (rulesOf policy)
  permits : ∀ policy, applies (rulesOf policy) → Settled operation context (rulesOf policy) →
    Undenied operation context (rulesOf policy) → Granted operation context (rulesOf policy) →
      decision policy = .ok true
  refuses : ∀ policy, applies (rulesOf policy) → Settled operation context (rulesOf policy) →
    ¬ (Undenied operation context (rulesOf policy) ∧ Granted operation context (rulesOf policy)) →
      decision policy = .ok false
  order : ∀ policy other, applies (rulesOf policy) → Settled operation context (rulesOf policy) →
    (rulesOf policy).Perm (rulesOf other) → decision other = decision policy
  deny : ∀ policy other before rule after, applies (rulesOf policy) → rule.kind = .deny →
    rulesOf policy = before ++ after → rulesOf other = before ++ rule :: after →
      decision policy ≠ .ok true → decision other ≠ .ok true
  allow : ∀ policy other before rule after, applies (rulesOf policy) → rule.kind = .allow →
    rulesOf policy = before ++ after → rulesOf other = before ++ rule :: after →
      decision policy = .ok true → decision other ≠ .ok false

structure OpenByDefault (operation : Operation) (context : EvalContext)
    (rulesOf : ModelPolicy → List Rule) (decision : ModelPolicy → Except EvalError Bool) :
    Prop where
  iff_undenied : ∀ policy, ¬ Guarded operation (rulesOf policy) →
    (decision policy = .ok true ↔ Undenied operation context (rulesOf policy))
  order : ∀ policy other, ¬ Guarded operation (rulesOf policy) →
    Settled operation context (rulesOf policy) → (rulesOf policy).Perm (rulesOf other) →
      decision other = decision policy
  deny : ∀ policy other before rule after, ¬ Guarded operation (rulesOf policy) →
    rule.kind = .deny → rulesOf policy = before ++ after →
      rulesOf other = before ++ rule :: after →
        decision policy ≠ .ok true → decision other ≠ .ok true

section

variable {rulesOf : ModelPolicy → List Rule} {decision : ModelPolicy → Except EvalError Bool}
  {applies : List Rule → Prop}
  (decides : ∀ policy, decision policy = decide (rulesOf policy) operation context unguarded)

include decides

theorem denyOverrides_of_decide
    (guards : ∀ rules, applies rules → unguarded = true → Guarded operation rules) :
    DenyOverrides operation context applies rulesOf decision := by
  -- What is permitted is granted, since where no rule allows, nothing is open.
  have permitted_iff {rules : List Rule} (concerned : applies rules) :
      Permitted operation context unguarded rules ↔
        Undenied operation context rules ∧ Granted operation context rules := by
    have closed : ¬ (unguarded = true ∧ ¬ Guarded operation rules) :=
      fun wrong => wrong.2 (guards rules concerned wrong.1)
    simp only [Permitted, closed, or_false]
  have guarded_of_permits {rules : List Rule} (concerned : applies rules)
      (permits : decide rules operation context unguarded = .ok true) :
      Guarded operation rules :=
    Classical.byContradiction fun noGuard => by
      have answer : decide rules operation context unguarded = .ok unguarded :=
        decide_of_unguarded (undenied_of_decide permits) noGuard
      exact noGuard (guards rules concerned (Except.ok.inj (answer.symm.trans permits)))
  constructor
  case sound =>
    intro policy concerned permits
    rw [decides] at permits
    exact ⟨undenied_of_decide permits,
      granted_of_decide (guarded_of_permits concerned permits) permits⟩
  case permits =>
    intro policy concerned settled undenied granted
    rw [decides, decide_eq_ok_true_iff settled, permitted_iff concerned]
    exact ⟨undenied, granted⟩
  case refuses =>
    intro policy concerned settled refused
    rw [decides]
    exact decide_eq_ok_false settled fun permitted => refused ((permitted_iff concerned).1 permitted)
  case order =>
    intro policy other _ settled same
    rw [decides, decides]
    exact decide_perm same settled
  case deny =>
    intro policy other before rule after _ denies whole longer refused permits
    rw [decides, longer] at permits
    rw [decides, whole] at refused
    exact refused (decide_of_insert_deny denies permits)
  case allow =>
    intro policy other before rule after concerned allows whole longer permits
    rw [decides] at permits ⊢
    have guarded := guarded_of_permits concerned permits
    rw [whole] at guarded permits
    rw [longer]
    exact decide_insert_allow allows guarded permits

theorem openByDefault_of_decide (opens : unguarded = true) :
    OpenByDefault operation context rulesOf decision := by
  subst opens
  constructor
  case iff_undenied =>
    intro policy noGuard
    rw [decides]
    exact ⟨undenied_of_decide, fun undenied => decide_of_unguarded undenied noGuard⟩
  case order =>
    intro policy other _ settled same
    rw [decides, decides]
    exact decide_perm same settled
  case deny =>
    intro policy other before rule after _ denies whole longer refused permits
    rw [decides, longer] at permits
    rw [decides, whole] at refused
    exact refused (decide_of_insert_deny denies permits)

end

end Rule

namespace ModelPolicy

def rulesOf (field : String) (policy : ModelPolicy) : List Rule :=
  (policy.fieldRules.find? field).getD []

theorem isFieldAllowed_eq_decide (policy : ModelPolicy) (field : String) (operation : Operation)
    (context : EvalContext) :
    policy.isFieldAllowed field operation context =
      Rule.decide (policy.rulesOf field) operation context true := by
  unfold isFieldAllowed rulesOf
  cases policy.fieldRules.find? field <;> rfl

/--
A rule that denies overrides all that allow. Where no rule allows, a record is denied, and a field
is open.
-/
theorem isAllowed_denyOverrides (field : String) (operation : Operation) (context : EvalContext) :
    Rule.DenyOverrides operation context (fun _ => True) ModelPolicy.rules
        (fun policy => policy.isAllowed operation context) ∧
      Rule.DenyOverrides operation context (Rule.Guarded operation) (rulesOf field)
        (fun policy => policy.isFieldAllowed field operation context) ∧
      Rule.OpenByDefault operation context (rulesOf field)
        (fun policy => policy.isFieldAllowed field operation context) := by
  have fields (policy : ModelPolicy) :=
    isFieldAllowed_eq_decide policy field operation context
  refine ⟨?_, ?_, ?_⟩
  · exact Rule.denyOverrides_of_decide (fun _ => rfl) fun _ _ opens => Bool.noConfusion opens
  · exact Rule.denyOverrides_of_decide fields fun _ guarded _ => guarded
  · exact Rule.openByDefault_of_decide fields rfl

/-- All posts are open, but those that are locked cannot be deleted, and no field has a rule. -/
def lockable : ModelPolicy :=
  ⟨"Post", [⟨.allow, Operation.all, .const true, "true"⟩,
    ⟨.deny, [.delete], .test (.field 0 ["locked"]), "locked"⟩], .empty⟩

def unlocked : EvalContext := ⟨.object [("locked", .bool false)], none, none, ""⟩

theorem isAllowed_denyOverrides_unlocked :
    lockable.isAllowed .delete unlocked = .ok true ∧
      Rule.Undenied .delete unlocked lockable.rules ∧ Rule.Granted .delete unlocked lockable.rules ∧
      lockable.isFieldAllowed "title" .read unlocked = .ok true := by
  have laws := isAllowed_denyOverrides "title" .delete unlocked
  have noRules : lockable.rulesOf "title" = [] := rfl
  obtain ⟨undenied, granted⟩ := laws.1.sound lockable trivial rfl
  refine ⟨rfl, undenied, granted, ?_⟩
  refine ((isAllowed_denyOverrides "title" .read unlocked).2.2.iff_undenied lockable ?_).2 ?_ <;>
    simp [noRules, Rule.Guarded, Rule.Undenied]

end ModelPolicy

end Schemata
