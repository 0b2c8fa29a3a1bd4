import Schemata.Proofs.Schema.Loosening
import Schemata.Proofs.Typing.Issues

/-!
# Parameters of any type

What is made of a parameter whose type is given up is of its former type or of any type, and is not
reported where it was not before. A list of items is the exception: the type of one item stands for
all of them, and it is another one if an item is of any type.
-/

set_option autoImplicit false

namespace Schemata

def ValueType.Loosens (before after : ValueType) : Prop := after = before ∨ after.isAny = true

theorem ValueType.kind_of_isAny {type : ValueType} (isAny : type.isAny = true) :
    type.kind = .any := by
  unfold ValueType.isAny at isAny
  split at isAny
  · assumption
  · cases isAny

theorem Typing.isAny_arithmetic {left right : ValueType}
    (either : left.isAny = true ∨ right.isAny = true) :
    (Typing.arithmetic left right).isAny = true := by
  rcases either with isAny | isAny
  · rw [arithmetic, ValueType.kind_of_isAny isAny]
    rfl
  · rw [arithmetic, ValueType.kind_of_isAny isAny]
    cases left.kind <;> rfl

namespace ValueType.Loosens

variable {before after left left' right right' : ValueType}

theorem refl (type : ValueType) : type.Loosens type := .inl rfl

theorem isBooleanLike (loosens : before.Loosens after) (fits : before.isBooleanLike = true) :
    after.isBooleanLike = true := by
  rcases loosens with rfl | isAny
  · exact fits
  · rw [ValueType.isBooleanLike, isAny, Bool.true_or]

theorem isNumericLike (loosens : before.Loosens after) (fits : before.isNumericLike = true) :
    after.isNumericLike = true := by
  rcases loosens with rfl | isAny
  · exact fits
  · rw [ValueType.isNumericLike, isAny, Bool.true_or]

theorem isDateTimeLike (loosens : before.Loosens after) (fits : before.isDateTimeLike = true) :
    after.isDateTimeLike = true := by
  rcases loosens with rfl | isAny
  · exact fits
  · rw [ValueType.isDateTimeLike, isAny, Bool.true_or]

theorem both (loosens : left.Loosens left') (others : right.Loosens right') :
    (left' = left ∧ right' = right) ∨ left'.isAny = true ∨ right'.isAny = true := by
  rcases loosens with same | isAny
  · rcases others with sameToo | isAny
    · exact .inl ⟨same, sameToo⟩
    · exact .inr (.inr isAny)
  · exact .inr (.inl isAny)

theorem comparable (loosens : left.Loosens left') (others : right.Loosens right')
    (fits : left.comparable right = true) : left'.comparable right' = true := by
  rcases loosens.both others with ⟨rfl, rfl⟩ | isAny | isAny
  · exact fits
  · simp [ValueType.comparable, isAny]
  · simp [ValueType.comparable, isAny]

theorem assignable {literal : Bool} {target target' : ValueType}
    (targets : target' = target ∨ target' = .any) (loosens : before.Loosens after)
    (fits : target.assignable literal before = true) : target'.assignable literal after = true := by
  rcases loosens with rfl | isAny
  · rcases targets with rfl | rfl
    · exact fits
    · simp [ValueType.assignable, any, isAny]
  · exact assignable_of_isAny isAny

end ValueType.Loosens

/-- The second result is related to the first one, and is reported for nothing else. -/
structure Checked.Eases {α : Type} (related : α → α → Prop) (before after : Checked α) : Prop where
  value : related before.value after.value
  reports : after.diagnostics ⊆ before.diagnostics

namespace Checked.Eases

variable {α β : Type} {related : α → α → Prop} {others : β → β → Prop}

theorem refl (reflexive : ∀ value, related value value) (checked : Checked α) :
    checked.Eases related checked :=
  ⟨reflexive _, List.Subset.refl _⟩

theorem pure {value value' : α} (holds : related value value') :
    Eases related (Pure.pure value) (Pure.pure value') :=
  ⟨holds, List.Subset.refl _⟩

theorem bind {first first' : Checked α} {next next' : α → Checked β}
    (head : first.Eases related first')
    (tail : related first.value first'.value →
      (next first.value).Eases others (next' first'.value)) :
    (first >>= next).Eases others (first' >>= next') where
  value := (tail head.value).value
  reports := by
    intro diagnostic found
    simp only [Checked.diagnostics_bind, List.mem_append] at found ⊢
    exact found.imp (fun here => head.reports here) (fun there => (tail head.value).reports there)

theorem ofAny {before after : Checked ValueType} (isAny : after.value.isAny = true)
    (silent : after.diagnostics = []) : before.Eases ValueType.Loosens after :=
  ⟨.inr isAny, silent ▸ List.nil_subset _⟩

end Checked.Eases

namespace Typing

variable {left left' right right' operand operand' : ValueType}

theorem eases_reportUnless {condition condition' : Bool} {span : Span} {issue issue' : TypeIssue}
    (holds : condition = true → condition' = true) (same : condition' = false → issue' = issue) :
    (reportUnless condition span issue).Eases Eq (reportUnless condition' span issue') := by
  refine ⟨rfl, ?_⟩
  cases condition' with
  | true => exact List.nil_subset _
  | false =>
    cases condition with
    | true => cases holds rfl
    | false =>
      rw [same rfl]
      exact List.Subset.refl _

theorem eases_unary (op : UnaryOp) (span : Span) (loosens : operand.Loosens operand') :
    (unary op operand span).Eases ValueType.Loosens (unary op operand' span) := by
  cases op with
  | not =>
    exact .bind (eases_reportUnless loosens.isBooleanLike fun _ => rfl) fun _ => .pure (.refl _)
  | negate =>
    rcases loosens with rfl | isAny
    · exact .refl .refl _
    · have fits : operand'.isNumericLike = true := by
        rw [ValueType.isNumericLike, isAny, Bool.true_or]
      unfold unary
      simp only [fits, if_true]
      exact .ofAny isAny rfl

theorem eases_binary (op : BinaryOp) (span : Span) (loosens : left.Loosens left')
    (others : right.Loosens right') :
    (binary op left right span).Eases ValueType.Loosens (binary op left' right' span) := by
  rcases loosens.both others with ⟨rfl, rfl⟩ | isAny
  · exact .refl .refl _
  unfold binary
  split
  next =>
    refine .bind (eases_reportUnless (fun fits => ?_) fun _ => rfl) fun _ => .pure (.refl _)
    rw [Bool.and_eq_true_iff] at fits ⊢
    exact ⟨loosens.isBooleanLike fits.1, others.isBooleanLike fits.2⟩
  next =>
    split
    next =>
      have mono (fits : (left.isNumericLike && right.isNumericLike) = true) :
          (left'.isNumericLike && right'.isNumericLike) = true := by
        rw [Bool.and_eq_true_iff] at fits ⊢
        exact ⟨loosens.isNumericLike fits.1, others.isNumericLike fits.2⟩
      by_cases fits : (left'.isNumericLike && right'.isNumericLike) = true
      next =>
        rw [if_pos fits]
        exact .ofAny (isAny_arithmetic isAny) rfl
      next =>
        rw [if_neg fits, if_neg fun fitted => fits (mono fitted)]
        exact .refl .refl _
    next =>
      split
      next =>
        refine .bind (eases_reportUnless (fun fits => ?_) fun _ => rfl) fun _ => .pure (.refl _)
        rw [Bool.or_eq_true_iff, Bool.and_eq_true_iff, Bool.and_eq_true_iff] at fits ⊢
        exact fits.imp
          (fun fits => ⟨loosens.isNumericLike fits.1, others.isNumericLike fits.2⟩)
          (fun fits => ⟨loosens.isDateTimeLike fits.1, others.isDateTimeLike fits.2⟩)
      next =>
        refine .bind (eases_reportUnless (loosens.comparable others) fun unfit => ?_)
          fun _ => .pure (.refl _)
        -- Nothing is incomparable with a value of any type.
        rcases isAny with isAny | isAny <;> simp [ValueType.comparable, isAny] at unfit

end Typing

namespace Schema.Eases

variable {before after : Schema} (eases : before.Eases after)

include eases

theorem typeOfRef (type : TypeRef) :
    Typing.typeOfRef after type = Typing.typeOfRef before type := by
  rw [Typing.typeOfRef, Typing.typeOfRef, SymbolTable.resolve_of_eases eases.symbols]

theorem checkField (field : Field) (span : Span) :
    Typing.field after field span = Typing.field before field span := by
  unfold Typing.field Schema.typeOf
  rw [SymbolTable.resolve_of_eases eases.symbols]

theorem principal (span : Span) : Typing.principal after span = Typing.principal before span := by
  unfold Typing.principal Schema.principal?
  rw [SymbolTable.model?_of_eases eases.symbols]

theorem typeOfParam {param other : FunctionParam} (related : param.Eases other) :
    Typing.typeOfRef after other.type = Typing.typeOfRef before param.type ∨
      Typing.typeOfRef after other.type = .any := by
  cases related with
  | same => exact .inl (eases.typeOfRef _)
  | loosened => exact .inr rfl

end Schema.Eases

namespace Typing

variable {before after : Schema} {scope other : Scope} (schemas : before.Eases after)

include schemas

theorem eases_reference (name : Ident) (scopes : List.Forall₂ Frame.Eases scope other) :
    (reference before scope name).Eases ValueType.Loosens (reference after other name) := by
  have found := Scope.eases_lookup? schemas name.name scopes
  unfold reference
  generalize scope.lookup? before name.name = first at found ⊢
  generalize other.lookup? after name.name = second at found ⊢
  cases found with
  | same =>
    cases first with
    | none => exact .refl .refl _
    | some binding =>
      cases binding with
      | param frame index param =>
        simp only [schemas.typeOfRef]
        exact .refl .refl _
      | field frame value model field =>
        simp only [schemas.checkField]
        exact .refl .refl _
      | enumMember decl enumMember => exact .refl .refl _
  | param related =>
    rcases schemas.typeOfParam related with same | isAny
    · exact .pure (.inl same)
    · exact .pure (.inr (by rw [isAny]; rfl))

theorem eases_access {object object' : ValueType} (name : Ident)
    (loosens : object.Loosens object') :
    (access before object name).Eases ValueType.Loosens (access after object' name) := by
  rcases loosens with rfl | isAny
  · have same : access after object' name = access before object' name := by
      simp only [access, schemas.field?, schemas.checkField]
    rw [same]
    exact .refl .refl _
  · unfold access
    simp only [ValueType.kind_of_isAny isAny]
    exact .ofAny rfl rfl

theorem eases_argument {params others : List FunctionParam} {type type' : ValueType}
    (function : String) (value : Expr) (each : List.Forall₂ FunctionParam.Eases params others)
    (loosens : type.Loosens type') :
    (argument before function params value type).Eases Eq
      (argument after function others value type') := by
  cases each with
  | nil => exact .refl (fun _ => rfl) _
  | cons here _ =>
    refine eases_reportUnless (loosens.assignable (schemas.typeOfParam here)) fun unfit => ?_
    rcases loosens with rfl | isAny
    · rw [here.name]
    · rw [ValueType.assignable_of_isAny isAny] at unfit
      cases unfit

omit schemas in
theorem argumentCount_of_eases {decl decl' : FunctionDecl} (related : decl.Eases decl')
    (function : Ident) (given : Nat) :
    argumentCount decl' function given = argumentCount decl function given := by
  have optional : decl'.params.map (·.type.isOptional) = decl.params.map (·.type.isOptional) :=
    map_of_forall₂ (fun param other here => here.isOptional) related.params
  have least : decl'.params.countP (fun param => !param.type.isOptional) =
      decl.params.countP fun param => !param.type.isOptional := by
    have counted := congrArg (List.countP (!·)) optional
    rwa [List.countP_map, List.countP_map] at counted
  rw [argumentCount, argumentCount, related.params.length_eq, least]

end Typing

mutual

/--
No list of items gets another type in the second place, unless the type of a list of anything. Lists
in the arguments of `auth` and `future` have no type.
-/
def Expr.KeepsLists (before after : Schema) (scope other : Scope) : Expr → Prop
  | .literal _ _ | .this _ | .reference _ _ => True
  | .access object _ _ => object.KeepsLists before after scope other
  | .unary _ operand _ => operand.KeepsLists before after scope other
  | .binary _ left right _ =>
      left.KeepsLists before after scope other ∧ right.KeepsLists before after scope other
  | .call function arguments _ =>
      function.name ≠ "auth" → function.name ≠ "future" →
        Argument.KeepsListsOfAll before after scope other arguments
  | .list items span =>
      Expr.KeepsListsOfAll before after scope other items ∧
        ((Expr.list items span).typeIn before scope).Loosens
          ((Expr.list items span).typeIn after other)
  | .quantified collection _ condition _ =>
      collection.KeepsLists before after scope other ∧
        ∀ model, collection.typeIn after other = ⟨.model model, true⟩ →
          condition.KeepsLists before after (.element model :: scope) (.element model :: other)

def Expr.KeepsListsOfAll (before after : Schema) (scope other : Scope) : List Expr → Prop
  | [] => True
  | item :: rest =>
      item.KeepsLists before after scope other ∧ Expr.KeepsListsOfAll before after scope other rest

def Argument.KeepsListsOfAll (before after : Schema) (scope other : Scope) : List Argument → Prop
  | [] => True
  | .positional value :: rest | .named _ value :: rest =>
      value.KeepsLists before after scope other ∧
        Argument.KeepsListsOfAll before after scope other rest

end

section

variable {before after : Schema} {scope other : Scope}

theorem Expr.reports_checkAll {items : List Expr} {future : Bool}
    (each : ∀ item ∈ items, item.KeepsLists before after scope other →
      (item.check before future scope).Eases ValueType.Loosens (item.check after future other))
    (keeps : Expr.KeepsListsOfAll before after scope other items) :
    (Expr.checkAll after future other items).diagnostics ⊆
      (Expr.checkAll before future scope items).diagnostics := by
  induction items with
  | nil => exact List.Subset.refl _
  | cons item rest ih =>
    have split := List.forall_mem_cons.1 each
    simp only [Expr.checkAll, Checked.diagnostics_bind, Checked.diagnostics_pure, List.append_nil]
    intro diagnostic found
    rw [List.mem_append] at found ⊢
    exact found.imp (fun here => (split.1 keeps.1).reports here)
      (fun there => ih split.2 keeps.2 there)

theorem Argument.eases_checkAll (schemas : before.Eases after) {future known : Bool}
    {function : String} {arguments : List Argument}
    (each : ∀ argument ∈ arguments, argument.value.KeepsLists before after scope other →
      (argument.value.check before future scope).Eases ValueType.Loosens
        (argument.value.check after future other))
    (keeps : Argument.KeepsListsOfAll before after scope other arguments) :
    ∀ {params others}, List.Forall₂ FunctionParam.Eases params others →
      (Argument.checkAll before future scope function known params arguments).Eases Eq
        (Argument.checkAll after future other function known others arguments) := by
  induction arguments with
  | nil => exact fun _ => .refl (fun _ => rfl) _
  | cons argument rest ih =>
    intro params others related
    have split := List.forall_mem_cons.1 each
    have tail : List.Forall₂ FunctionParam.Eases params.tail others.tail := by
      cases related with
      | nil => exact .nil
      | cons _ rest => exact rest
    cases argument with
    | positional value =>
      rw [checkAll, checkAll]
      exact .bind (split.1 keeps.1) fun loosens =>
        .bind (Typing.eases_argument schemas function value related loosens) fun _ =>
          ih split.2 keeps.2 tail
    | named name value =>
      rw [checkAll, checkAll]
      exact .bind (.refl (fun _ => rfl) _) fun _ =>
        .bind (split.1 keeps.1) fun loosens =>
          .bind (Typing.eases_argument schemas function value related loosens) fun _ =>
            ih split.2 keeps.2 tail

theorem Expr.eases_check_call (schemas : before.Eases after) {future : Bool} {function : Ident}
    {arguments : List Argument} {span : Span} (scopes : List.Forall₂ Frame.Eases scope other)
    (each : ∀ argument ∈ arguments, argument.value.KeepsLists before after scope other →
      (argument.value.check before future scope).Eases ValueType.Loosens
        (argument.value.check after future other))
    (keeps : (Expr.call function arguments span).KeepsLists before after scope other) :
    ((Expr.call function arguments span).check before future scope).Eases ValueType.Loosens
      ((Expr.call function arguments span).check after future other) := by
  by_cases isAuth : function.name = "auth"
  · rw [check_auth _ _ _ _ _ isAuth, check_auth _ _ _ _ _ isAuth, schemas.principal]
    exact .refl .refl _
  by_cases isFuture : function.name = "future"
  · rw [check_future _ _ _ _ _ isFuture, check_future _ _ _ _ _ isFuture, Typing.updated,
      Typing.updated, Scope.record?_of_eases scopes]
    exact .refl .refl _
  have found := SymbolTable.rel_function? schemas.symbols function.name
  generalize known : before.symbols.function? function.name = first at found
  generalize knownToo : after.symbols.function? function.name = second at found
  cases found with
  | none =>
    rw [check_unknown _ _ _ _ _ isAuth isFuture known,
      check_unknown _ _ _ _ _ isAuth isFuture knownToo]
    exact .bind (.refl (fun _ => rfl) _) fun _ =>
      .bind (Argument.eases_checkAll schemas each (keeps isAuth isFuture) .nil) fun _ =>
        .refl .refl _
  | some related =>
    rw [check_call _ _ _ _ _ isAuth isFuture known, check_call _ _ _ _ _ isAuth isFuture knownToo,
      Typing.argumentCount_of_eases related, related.result, schemas.typeOfRef]
    exact .bind (.refl (fun _ => rfl) _) fun _ =>
      .bind (Argument.eases_checkAll schemas each (keeps isAuth isFuture) related.params)
        fun _ => .refl .refl _

theorem Expr.eases_check_quantified {future : Bool} {collection condition : Expr}
    {quantifier : Quantifier} {span : Span}
    (outside : (collection.check before future scope).Eases ValueType.Loosens
      (collection.check after future other))
    (inside : ∀ model, condition.KeepsLists before after (.element model :: scope)
      (.element model :: other) →
        (condition.check before future (.element model :: scope)).Eases ValueType.Loosens
          (condition.check after future (.element model :: other)))
    (keeps : (Expr.quantified collection quantifier condition span).KeepsLists before after scope
      other) :
    ((Expr.quantified collection quantifier condition span).check before future scope).Eases
      ValueType.Loosens
      ((Expr.quantified collection quantifier condition span).check after future other) := by
  rw [check, check]
  refine .bind outside fun loosens => ?_
  have typed : (collection.check after future other).value = collection.typeIn after other :=
    collection.value_check future other
  rcases loosens with same | isAny
  · rw [same] at typed ⊢
    generalize (collection.check before future scope).value = type at typed ⊢
    split
    next => exact .refl .refl _
    next model isModel =>
      split
      next isList =>
        have isRecords : type = ⟨.model model, true⟩ := by rw [← isModel, ← isList]
        refine .bind (inside model (keeps.2 model (typed ▸ isRecords))) fun loosens => ?_
        exact .bind (Typing.eases_reportUnless loosens.isBooleanLike fun _ => rfl) fun _ =>
          .refl .refl _
      next => exact .refl .refl _
    next => exact .refl .refl _
  · -- Nothing is asked of a collection of any type.
    rw [ValueType.kind_of_isAny isAny]
    split
    next => exact .refl .refl _
    next => split <;> exact ⟨.inl rfl, List.nil_subset _⟩
    next => exact ⟨.inl rfl, List.nil_subset _⟩

theorem Expr.eases_check (schemas : before.Eases after) (future : Bool) (expr : Expr) :
    ∀ {scope other : Scope}, List.Forall₂ Frame.Eases scope other →
      expr.KeepsLists before after scope other →
      (expr.check before future scope).Eases ValueType.Loosens (expr.check after future other) := by
  -- Types of parts are the former ones or `Any`, which every rule takes for whatever it asks. Only
  -- the type of a list is another matter, and it is kept by assumption.
  induction expr using Expr.inductionOn with
  | literal value span => exact fun _ _ => .refl .refl _
  | this span =>
    intro scope other scopes _
    rw [check, check, Typing.this, Typing.this, Scope.this?_of_eases scopes]
    exact .refl .refl _
  | reference name span => exact fun scopes _ => Typing.eases_reference schemas name scopes
  | access object member span ih =>
    intro scope other scopes keeps
    rw [check, check]
    exact .bind (ih scopes keeps) fun loosens => Typing.eases_access schemas member loosens
  | unary op operand span ih =>
    intro scope other scopes keeps
    rw [check, check]
    exact .bind (ih scopes keeps) fun loosens => Typing.eases_unary op span loosens
  | binary op left right span leftIh rightIh =>
    intro scope other scopes keeps
    rw [check, check]
    exact .bind (leftIh scopes keeps.1) fun loosens =>
      .bind (rightIh scopes keeps.2) fun others => Typing.eases_binary op span loosens others
  | call function arguments span ih =>
    intro scope other scopes keeps
    exact eases_check_call schemas scopes (fun argument given => ih argument given scopes) keeps
  | list items span ih =>
    intro scope other scopes keeps
    refine ⟨?_, ?_⟩
    · rw [value_check, value_check]
      exact keeps.2
    · rw [check, check, Checked.diagnostics_bind, Checked.diagnostics_bind]
      simpa using Expr.reports_checkAll (fun item listed => ih item listed scopes) keeps.1
  | quantified collection quantifier condition span collectionIh conditionIh =>
    intro scope other scopes keeps
    exact eases_check_quantified (collectionIh scopes keeps.1)
      (fun model => conditionIh (.cons (.same (.element model)) scopes)) keeps

end

theorem FunctionDecl.eases_check {before after : Schema} (schemas : before.Eases after)
    {decl other : FunctionDecl} (related : decl.Eases other) (sameBody : other.body = decl.body)
    (keeps : ∀ body, decl.body = some body →
      body.KeepsLists before after [.function decl.params] [.function other.params]) :
    other.check after ⊆ decl.check before := by
  unfold FunctionDecl.check
  rw [sameBody]
  cases isBody : decl.body with
  | none => exact List.Subset.refl _
  | some body =>
    have eases := body.eases_check schemas false (.cons (.function related.params) .nil)
      (keeps body isBody)
    simp only [related.name, related.result, schemas.typeOfRef]
    intro diagnostic found
    rw [List.mem_append] at found ⊢
    refine found.imp (fun here => eases.reports here) fun there => ?_
    -- A result that is reported has the type that it had.
    rcases eases.value with same | isAny
    · rwa [same] at there
    · rw [ValueType.assignable_of_isAny isAny] at there
      cases there

/--
A function whose lists keep their types is reported for nothing else after the type of one of its
parameters is given up.
-/
theorem FunctionDecl.check_loosen {document : Document} {place index : Nat} {decl : FunctionDecl}
    {body : Expr} (declared : document.declarations[place]? = some (.function decl))
    (isBody : decl.body = some body)
    (keeps : body.KeepsLists (.ofDocument document) (.ofDocument (document.loosen place index))
      [.function decl.params] [.function (decl.loosen index).params]) :
    (document.loosen place index).declarations[place]? = some (.function (decl.loosen index)) ∧
      (decl.loosen index).check (.ofDocument (document.loosen place index)) ⊆
        decl.check (.ofDocument document) := by
  refine ⟨?_, ?_⟩
  · rw [Document.loosen, List.getElem?_modify_eq, declared]
    rfl
  · refine eases_check (document.eases_loosen place index) (decl.eases_loosen index) rfl ?_
    intro other isOther
    cases isBody.symm.trans isOther
    exact keeps

namespace Tagging

open Library

def reference (name : String) : Expr := .reference (ident name) Span.zero

def text (value : String) : Expr := .literal (.string value) Span.zero

def function (name : String) (params : List (String × TypeRef)) (body : Expr) : FunctionDecl :=
  ⟨ident name, params.map fun (param, type) => ⟨ident param, type⟩, boolean, some body, Span.zero⟩

/-- The value `hasSome(tags, [tag, 'new']) && tag`. -/
def tagged : Expr :=
  .binary .and
    (.call (ident "hasSome")
      [.positional (reference "tags"), .positional (.list [reference "tag", text "new"] Span.zero)]
      Span.zero)
    (reference "tag") Span.zero

/-- `function isTagged(tags: String[], tag: String): Boolean` with the value for its body -/
def isTagged : FunctionDecl := function "isTagged" [("tags", list string), ("tag", string)] tagged

def document : Document := ⟨[.function isTagged]⟩

/-- `function isMixed(tag: String): Boolean { [1, tag] == ['a'] }` -/
def isMixed : FunctionDecl :=
  function "isMixed" [("tag", string)]
    (.binary .eq (.list [.literal (.number "1") Span.zero, reference "tag"] Span.zero)
      (.list [text "a"] Span.zero) Span.zero)

def user : Model :=
  ⟨ident "User", false, [],
    [⟨ident "id", int, [⟨ident "@id", [], Span.zero⟩], Span.zero⟩,
      ⟨ident "active", boolean, [], Span.zero⟩],
    [], Span.zero⟩

/-- `function isActive(owner: User): Boolean { [null, owner]?[active] }` -/
def isActive : FunctionDecl :=
  function "isActive" [("owner", named "User")]
    (.quantified (.list [.literal .null Span.zero, reference "owner"] Span.zero) .any
      (reference "active") Span.zero)

def lists : Document := ⟨[.model user, .function isMixed, .function isActive]⟩

end Tagging

/-- The operand of `&&` is no longer reported, and nothing else is. -/
theorem Tagging.check_isTagged :
    isTagged.check (.ofDocument document) =
        [.error Span.zero (.typing (.logicalOperands "&&"))] ∧
      (document.loosen 0 1).declarations[0]? = some (.function (isTagged.loosen 1)) ∧
      (isTagged.loosen 1).check (.ofDocument (document.loosen 0 1)) ⊆
        isTagged.check (.ofDocument document) := by
  have keeps : tagged.KeepsLists (.ofDocument document) (.ofDocument (document.loosen 0 1))
      [.function isTagged.params] [.function (isTagged.loosen 1).params] :=
    ⟨fun _ _ => ⟨trivial, ⟨⟨trivial, trivial, trivial⟩, .inr rfl⟩, trivial⟩, trivial⟩
  exact ⟨rfl, FunctionDecl.check_loosen rfl rfl keeps⟩

/-- An item of any type leaves the list with the type of a number, or of `null`. -/
theorem Tagging.check_loosen_lists :
    isMixed.check (.ofDocument lists) = [] ∧
      (isMixed.loosen 0).check (.ofDocument (lists.loosen 1 0)) =
        [.error Span.zero (.typing (.incomparable "Int[]" "String[]" "=="))] ∧
      isActive.check (.ofDocument lists) = [] ∧
      (isActive.loosen 0).check (.ofDocument (lists.loosen 2 0)) =
        [.error Span.zero (.typing .notACollection)] :=
  ⟨rfl, rfl, rfl, rfl⟩

end Schemata
