import Mathlib.Data.List.Forall2
import Schemata.Policy.Lower
import Schemata.Proofs.NameMap
import Schemata.Proofs.Order.Typing
import Schemata.Proofs.Policy.Bundle

set_option autoImplicit false

namespace Schemata

structure Schema.Alike (schema other : Schema) : Prop where
  declaration? : ∀ name, other.symbols.declaration? name = schema.symbols.declaration? name
  origin? : ∀ name, other.symbols.origin? name = schema.symbols.origin? name
  enumMember? : ∀ name, other.symbols.enumMember? name = schema.symbols.enumMember? name
  view? : ∀ name, other.hierarchy.view? name = schema.hierarchy.view? name
  distinct : ∀ name, ((schema.hierarchy.fields name).map VisibleField.name).Nodup
  size : other.symbols.symbols.length = schema.symbols.symbols.length

namespace Schema.Alike

variable {schema other : Schema} (alike : Alike schema other)
include alike

theorem fields : other.fields = schema.fields := by
  funext model
  rw [Schema.fields, Hierarchy.fields, alike.view?]
  rfl

theorem attributes : other.attributes = schema.attributes := by
  funext model
  rw [Schema.attributes, Hierarchy.attributes, alike.view?]
  rfl

theorem field? : other.field? = schema.field? := by
  funext model name
  rw [Schema.field?, alike.fields, Schema.field?]

theorem idFields : other.idFields = schema.idFields := by
  funext model
  unfold Schema.idFields
  rw [alike.fields, alike.attributes, alike.field?]

theorem symm : Alike other schema where
  declaration? name := (alike.declaration? name).symm
  origin? name := (alike.origin? name).symm
  enumMember? name := (alike.enumMember? name).symm
  view? name := (alike.view? name).symm
  distinct name := by
    have distinct := alike.distinct name
    rwa [Hierarchy.fields, ← alike.view?] at distinct
  size := alike.size.symm

theorem reordered : Reordered Model.bases schema other where
  declaration? name := by
    rw [alike.declaration?, Declaration.reorder_bases, Option.map_id, id]
  enumMember? := alike.enumMember?
  fields name := by
    rw [Hierarchy.fields, alike.view?, Hierarchy.fields]
  distinct := alike.distinct
  attributes name := by
    rw [Hierarchy.attributes, alike.view?, Hierarchy.attributes]

end Schema.Alike

theorem Scope.reorder_bases (scope : Scope) : Scope.reorder Model.bases scope = scope := by
  have frames : Frame.reorder Model.bases = id := by
    funext frame
    cases frame <;> rfl
  rw [Scope.reorder, frames, List.map_id]

section

variable {schema other : Schema} (alike : schema.Alike other)
include alike

theorem Expr.check_alike (expr : Expr) (future : Bool) (scope : Scope) :
    expr.check other future scope = expr.check schema future scope := by
  have checked := expr.check_reorder alike.reordered future scope
  rw [Scope.reorder_bases, funext ValueType.reorder_bases] at checked
  exact checked

theorem Expr.typeIn_alike (expr : Expr) (scope : Scope) :
    expr.typeIn other scope = expr.typeIn schema scope := by
  rw [typeIn, check_alike alike, typeIn]

theorem Scope.lookup?_alike (name : String) (scope : Scope) :
    lookup? other name scope = lookup? schema name scope := by
  have bindings : Binding.reorder Model.bases = id := by
    funext binding
    cases binding <;> rfl
  have found := lookup?_reorder alike.reordered name scope
  rwa [reorder_bases, bindings, Option.map_id, id] at found

namespace Lower

theorem comparedModel?_alike (scope : Scope) (op : Comparison) (left right : Expr) :
    comparedModel? other scope op left right = comparedModel? schema scope op left right := by
  simp only [comparedModel?, Expr.typeIn_alike alike]

theorem compare_alike (op : Comparison) (model? : Option Model) (left right : Operand) :
    compare other op model? left right = compare schema op model? left right := by
  simp only [compare, compareRecords, alike.idFields]

theorem elementModel_alike (scope : Scope) (collection : Expr) :
    elementModel other scope collection = elementModel schema scope collection := by
  simp only [elementModel, Expr.typeIn_alike alike]

theorem inlinable?_alike (name : String) : inlinable? other name = inlinable? schema name := by
  simp only [inlinable?, alike.reordered.function?, alike.origin?]

end Lower

end

section

variable {context : LowerContext} {other : Schema}

def Expr.LowersAlike (context : LowerContext) (other : Schema) (expr : Expr) : Prop :=
  ∀ scope : Scope, expr.lowerWith { context with schema := other } scope =
    expr.lowerWith context scope

theorem Expr.lowerAllWith_alike (scope : Scope) {items : List Expr}
    (lowers : ∀ item ∈ items, item.LowersAlike context other) :
    lowerAllWith { context with schema := other } scope items =
      lowerAllWith context scope items := by
  induction items with
  | nil => rfl
  | cons item rest ih =>
    rcases List.forall_mem_cons.1 lowers with ⟨first, others⟩
    rw [lowerAllWith, lowerAllWith, first scope, ih others]

theorem Argument.lowerAllWith_alike (scope : Scope) {arguments : List Argument}
    (lowers : ∀ argument ∈ arguments, argument.value.LowersAlike context other) :
    lowerAllWith { context with schema := other } scope arguments =
      lowerAllWith context scope arguments := by
  induction arguments with
  | nil => rfl
  | cons argument rest ih =>
    rcases List.forall_mem_cons.1 lowers with ⟨first, others⟩
    cases argument with
    | positional value | named _ value =>
      have here : value.LowersAlike context other := first
      rw [lowerAllWith, lowerAllWith, here scope, ih others]

theorem Expr.lowersAlike (alike : context.schema.Alike other) (expr : Expr) :
    expr.LowersAlike context other := by
  induction expr using Expr.inductionOn with
  | literal value span => exact fun scope => rfl
  | this span => exact fun scope => rfl
  | reference name span =>
    intro scope
    simp only [lowerWith, Lower.reference, Scope.lookup?_alike alike]
  | access object name span ih =>
    intro scope
    rw [lowerWith, lowerWith, ih scope]
  | unary op operand span ih =>
    intro scope
    cases op <;> simp only [lowerWith, ih scope]
  | binary op left right span first second =>
    intro scope
    simp only [lowerWith, first scope, second scope, Lower.comparedModel?_alike alike,
      Lower.compare_alike alike]
  | call function arguments span ih =>
    intro scope
    by_cases isAuth : function.name = "auth"
    next => rw [lowerWith_auth _ _ _ _ isAuth, lowerWith_auth _ _ _ _ isAuth]
    next =>
      by_cases isFuture : function.name = "future"
      next => rw [lowerWith_future _ _ _ _ isFuture, lowerWith_future _ _ _ _ isFuture]
      next =>
        rw [lowerWith_call _ _ _ _ isAuth isFuture, lowerWith_call _ _ _ _ isAuth isFuture,
          Argument.lowerAllWith_alike scope ih]
        simp only [Lower.call, Lower.inlinable?_alike alike]
  | list items span ih =>
    intro scope
    rw [lowerWith, lowerWith, lowerAllWith_alike scope ih]
  | quantified collection quantifier condition span ih body =>
    intro scope
    rw [lowerWith, lowerWith, Lower.elementModel_alike alike, ih scope]
    cases Lower.elementModel context.schema scope collection with
    | error error => rfl
    | ok model => simp only [body (.element model :: scope), Except.ok_bind]

end

section

variable {schema other : Schema} (alike : schema.Alike other)
include alike

theorem Lower.inlineInside_alike (fuel : Nat) :
    inlineInside other fuel = inlineInside schema fuel := by
  induction fuel with
  | zero =>
    funext inlined base decl operands depth
    rw [inlineInside.eq_def, inlineInside.eq_def]
  | succ fuel ih =>
    funext inlined base decl operands depth
    rw [inlineInside.eq_def, inlineInside.eq_def]
    dsimp only
    cases decl.body with
    | none => rfl
    | some body =>
      simp only [ih]
      have lowers : body.LowersAlike ⟨schema, base + depth, operands,
        inlineInside schema fuel (decl.name.name :: inlined) (base + depth)⟩ other :=
          body.lowersAlike alike
      have inside := lowers [.function decl.params]
      exact congrArg (ite _ _) inside

theorem Expr.lower_alike (scope : Scope) (expr : Expr) :
    expr.lower other scope = expr.lower schema scope := by
  have outside : LowerContext.outside other =
      { LowerContext.outside schema with schema := other } := by
    rw [LowerContext.outside, LowerContext.inside, alike.size, Lower.inlineInside_alike alike]
    rfl
  have lowers : expr.LowersAlike (.outside schema) other := expr.lowersAlike alike
  rw [lower, outside, lowers scope, lower]

namespace Schema

theorem lowerRules_alike (model : Model) (fieldLevel : Bool) (attributes : List Attribute) :
    other.lowerRules model fieldLevel attributes =
      schema.lowerRules model fieldLevel attributes := by
  induction attributes with
  | nil => rfl
  | cons applied rest ih =>
    have rule : other.rule? applied = schema.rule? applied := by
      simp only [rule?, alike.reordered.attribute?]
    have here : other.lowerRule model fieldLevel applied =
        schema.lowerRule model fieldLevel applied := by
      simp only [lowerRule, rule, Expr.lower_alike alike]
    rw [lowerRules, lowerRules, here, ih]

theorem lowerModel_alike (model : Model) : other.lowerModel model = schema.lowerModel model := by
  have fieldRules (fields : List VisibleField) :
      other.lowerFieldRules model fields = schema.lowerFieldRules model fields := by
    induction fields with
    | nil => rfl
    | cons visible rest ih =>
      rw [lowerFieldRules, lowerFieldRules, lowerRules_alike alike, ih]
  simp only [lowerModel, alike.attributes, alike.fields, lowerRules_alike alike, fieldRules]

theorem lowerModels_alike (models : List Model) :
    other.lowerModels models = schema.lowerModels models := by
  induction models with
  | nil => rfl
  | cons model rest ih => rw [lowerModels, lowerModels, lowerModel_alike alike, ih]

end Schema

end

namespace Schema

variable {schema : Schema}

theorem lowerModels_eq_ok_iff (models : List Model) : ∀ entries,
    schema.lowerModels models = .ok entries ↔
      List.Forall₂ (fun model entry => ∃ policy, schema.lowerModel model = .ok policy ∧
        entry = (model.name.name, policy)) models entries := by
  induction models with
  | nil =>
    intro entries
    rw [lowerModels, List.forall₂_nil_left_iff]
    exact ⟨fun same => (Except.ok.inj same).symm, fun same => same ▸ rfl⟩
  | cons first rest ih =>
    intro entries
    rw [lowerModels, Except.bind_eq_ok, List.forall₂_cons_left_iff]
    constructor
    · rintro ⟨policy, here, done⟩
      obtain ⟨others, behind, done⟩ := Except.bind_eq_ok.1 done
      cases done
      exact ⟨_, others, ⟨policy, here, rfl⟩, (ih others).1 behind, rfl⟩
    · rintro ⟨_, others, ⟨policy, here, rfl⟩, behind, rfl⟩
      exact ⟨policy, here, Except.bind_eq_ok.2 ⟨others, (ih others).2 behind, rfl⟩⟩

theorem lowerModels_perm {models others : List Model} (perm : others.Perm models)
    {entries : List (String × ModelPolicy)} (done : schema.lowerModels models = .ok entries) :
    ∃ again, schema.lowerModels others = .ok again ∧ again.Perm entries := by
  obtain ⟨again, lowered, permuted⟩ :=
    List.perm_comp_forall₂ perm ((lowerModels_eq_ok_iff models entries).1 done)
  exact ⟨again, (lowerModels_eq_ok_iff others again).2 lowered, permuted⟩

theorem bundle_eq_ok_of_perm {schema other : Schema} (alike : schema.Alike other)
    (unique : UniqueNames schema.hierarchy.models)
    (perm : other.hierarchy.models.Perm schema.hierarchy.models) {bundle : Bundle}
    (done : schema.bundle = .ok bundle) : other.bundle = .ok bundle := by
  obtain ⟨entries, lowered, same⟩ := Except.bind_eq_ok.1 done
  cases same
  obtain ⟨again, loweredToo, permuted⟩ := lowerModels_perm (perm.filter _) lowered
  have names := (lowerModels_eq_ok _ _ lowered).1
  have distinct : (entries.map Prod.fst).Nodup := by
    rw [names]
    exact unique.sublist (List.filter_sublist.map _)
  rw [Schema.bundle, lowerModels_alike alike, loweredToo, Except.ok_bind,
    NameMap.ofList_perm permuted distinct]

end Schema

end Schemata
