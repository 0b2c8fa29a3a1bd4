import Mathlib.Data.List.Nodup
import Schemata.Proofs.NameMap
import Schemata.Proofs.Policy.Rules
import Schemata.Proofs.Schema.Members
import Schemata.Syntax.DocumentReader

set_option autoImplicit false

namespace Schemata

structure ModelPolicy.StatedBy (document : Document) (model : Model) (sources : List Model)
    (policy : ModelPolicy) : Prop where
  named : policy.model = model.name.name
  rules : List.Forall₂ (Rule.StatedBy (.ofDocument document) model false)
    ((sources.flatMap Model.attributes).filter (Attribute.isRule false)) policy.rules
  fieldRules : ∀ field ∈ sources.flatMap Model.fields,
    List.Forall₂ (Rule.StatedBy (.ofDocument document) model true)
      (field.attributes.filter (Attribute.isRule true))
      ((policy.fieldRules.find? field.name.name).getD [])
  guarded : ∀ name rules, policy.fieldRules.find? name = some rules →
    rules ≠ [] ∧ ∃ field ∈ sources.flatMap Model.fields, field.name.name = name

structure Bundle.StatedBy (document : Document) (bundle : Bundle) : Prop where
  keys : ∀ name, (bundle.model? name).isSome = true ↔
    ∃ model ∈ document.models, model.isAbstract = false ∧ model.name.name = name
  policies : ∀ model ∈ document.models, model.isAbstract = false →
    ∃ ancestors policy, document.Ancestry model ancestors ∧
      bundle.model? model.name.name = some policy ∧
      policy.StatedBy document model (ancestors ++ [model])

variable {document : Document} {options : ValidationOptions} {schema : Schema} {model : Model}

structure Model.Checked (schema : Schema) (model : Model) : Prop where
  attributes : ∀ applied ∈ model.attributes, applied.Checked schema false
  fields : ∀ field ∈ model.fields, ∀ applied ∈ field.attributes, applied.Checked schema true

theorem Document.checked_of_isValid (formed : document.WellFormed)
    (valid : (document.validate options).isValid = true) (member : model ∈ document.models) :
    model.Checked (.ofDocument document) := by
  have modelFormed : model.WellFormed := formed _ (declaration_of_mem_models member)
  obtain ⟨fields, attributes⟩ := document.clean_checkAttribute valid member
  constructor
  · intro applied found
    exact ⟨modelFormed.attributes applied found, .model model, rfl, attributes applied found⟩
  · intro field declared applied found
    exact ⟨(modelFormed.fields field declared).attributes applied found, .field model field, rfl,
      fields field declared applied found⟩

namespace Schema

theorem lowerFieldRules_eq_ok (visible : List VisibleField) :
    ∀ entries, schema.lowerFieldRules model visible = .ok entries →
      (entries.map Prod.fst).Sublist (visible.map VisibleField.name) ∧
      (∀ next ∈ visible, ∃ rules, schema.lowerRules model true next.field.attributes = .ok rules ∧
        (rules ≠ [] → (next.name, rules) ∈ entries)) ∧
      ∀ entry ∈ entries, entry.2 ≠ [] ∧ ∃ next ∈ visible, next.name = entry.1 ∧
        schema.lowerRules model true next.field.attributes = .ok entry.2 := by
  induction visible with
  | nil =>
    intro entries done
    cases done
    exact ⟨.slnil, nofun, nofun⟩
  | cons first rest ih =>
    intro entries done
    obtain ⟨rules, here, done⟩ := Except.bind_eq_ok.1 done
    obtain ⟨others, behind, done⟩ := Except.bind_eq_ok.1 done
    cases done
    obtain ⟨names, complete, sound⟩ := ih others behind
    have later : ∀ entry ∈ others, entry.2 ≠ [] ∧ ∃ next ∈ first :: rest, next.name = entry.1 ∧
        schema.lowerRules model true next.field.attributes = .ok entry.2 := by
      intro entry found
      obtain ⟨some, next, listed, known⟩ := sound entry found
      exact ⟨some, next, List.mem_cons_of_mem _ listed, known⟩
    -- A field without rules is left out of the entries, as if it were not visible.
    by_cases none : rules = []
    next =>
      subst none
      exact ⟨.cons _ names, List.forall_mem_cons.2 ⟨⟨[], here, nofun⟩, complete⟩, later⟩
    next =>
      rw [if_neg (by simpa using none)]
      refine ⟨.cons_cons _ names,
        List.forall_mem_cons.2 ⟨⟨rules, here, fun _ => List.mem_cons_self⟩, ?_⟩,
        List.forall_mem_cons.2 ⟨⟨none, first, List.mem_cons_self, rfl, here⟩, later⟩⟩
      intro next found
      obtain ⟨known, lowered, listed⟩ := complete next found
      exact ⟨known, lowered, fun some => List.mem_cons_of_mem _ (listed some)⟩

theorem lowerModels_eq_ok (models : List Model) :
    ∀ entries, schema.lowerModels models = .ok entries →
      entries.map Prod.fst = models.map (fun model => model.name.name) ∧
      ∀ model ∈ models, ∃ policy, schema.lowerModel model = .ok policy ∧
        (model.name.name, policy) ∈ entries := by
  induction models with
  | nil =>
    intro entries done
    cases done
    exact ⟨rfl, nofun⟩
  | cons first rest ih =>
    intro entries done
    obtain ⟨policy, here, done⟩ := Except.bind_eq_ok.1 done
    obtain ⟨others, behind, done⟩ := Except.bind_eq_ok.1 done
    cases done
    obtain ⟨names, complete⟩ := ih others behind
    refine ⟨congrArg (first.name.name :: ·) names,
      List.forall_mem_cons.2 ⟨⟨policy, here, List.mem_cons_self⟩, fun model found => ?_⟩⟩
    obtain ⟨policy, known, listed⟩ := complete model found
    exact ⟨policy, known, List.mem_cons_of_mem _ listed⟩

structure Lowerable (document : Document) (index : Nat) (model : Model) : Prop where
  here : document.models[index]? = some model
  sees : Hierarchy.Sees document.models index model
  checked : ∀ base ∈ document.models, base.Checked (.ofDocument document)

theorem Lowerable.rules {index : Nat} (sound : Lowerable document index model) {rules : List Rule}
    (done : (ofDocument document).lowerRules model false
      (((ofDocument document).attributes model).map VisibleAttribute.applied) = .ok rules) :
    List.Forall₂ (Rule.StatedBy (ofDocument document) model false)
      (((Hierarchy.sources document.models index model).flatMap Model.attributes).filter
        (Attribute.isRule false)) rules := by
  have attributes : (ofDocument document).attributes model =
      Hierarchy.visibleAttributes document.models index model := sound.sees.attributes
  rw [attributes] at done
  rw [← Hierarchy.map_visibleAttributes]
  · refine statedBy_of_lowerRules _ rules (fun applied found => ?_) done
    obtain ⟨visible, listed, rfl⟩ := List.mem_map.1 found
    obtain ⟨base, above, declared⟩ := Hierarchy.mem_visibleAttributes listed
    have member := Hierarchy.sources_subset sound.here above
    exact (sound.checked base member).attributes visible.applied declared
  · intro applied isRule
    -- Rules are no attributes that stay with their own model.
    obtain ⟨kind, named⟩ := Attribute.isRule_iff.1 isRule
    rw [named]
    cases kind <;> decide

theorem Lowerable.fieldRules {index : Nat} (sound : Lowerable document index model)
    {visible : VisibleField}
    (found : visible ∈ Hierarchy.reachingFields document.models index model)
    {rules : List Rule}
    (done : (ofDocument document).lowerRules model true visible.field.attributes = .ok rules) :
    List.Forall₂ (Rule.StatedBy (ofDocument document) model true)
      (visible.field.attributes.filter (Attribute.isRule true)) rules := by
  obtain ⟨base, member, declared⟩ :=
    Hierarchy.mem_reachingFields (List.mem_of_getElem? sound.here) found
  have checked := (sound.checked base member).fields visible.field declared
  exact statedBy_of_lowerRules _ rules checked done

theorem Lowerable.lowerModel {index : Nat} (sound : Lowerable document index model)
    {policy : ModelPolicy}
    (done : (ofDocument document).lowerModel model = .ok policy) :
    policy.StatedBy document model (Hierarchy.sources document.models index model) := by
  obtain ⟨rules, lowered, done⟩ := Except.bind_eq_ok.1 done
  obtain ⟨entries, fieldsLowered, done⟩ := Except.bind_eq_ok.1 done
  cases done
  have fields : (ofDocument document).fields model =
      Hierarchy.reachingFields document.models index model := sound.sees.fields
  rw [fields] at fieldsLowered
  obtain ⟨names, complete, listed⟩ := lowerFieldRules_eq_ok _ entries fieldsLowered
  -- Each field has its own key, so that no rules are written over those of another field.
  have distinct : (entries.map Prod.fst).Nodup := names.nodup sound.sees.distinct
  have find? (name : String) (rules : List Rule) :
      (NameMap.ofList entries).find? name = some rules ↔ (name, rules) ∈ entries :=
    NameMap.find?_ofList_eq_some_iff distinct
  refine ⟨rfl, sound.rules lowered, fun field member => ?_, fun name rules found => ?_⟩
  · rw [← Hierarchy.map_reachingFields] at member
    obtain ⟨visible, reaching, rfl⟩ := List.mem_map.1 member
    obtain ⟨own, lowered, kept⟩ := complete visible reaching
    have same : ((NameMap.ofList entries).find? visible.name).getD [] = own := by
      cases found : (NameMap.ofList entries).find? visible.name with
      | none =>
        by_contra some
        rw [(find? visible.name own).2 (kept (Ne.symm some))] at found
        cases found
      | some rules =>
        -- No other field of that name reaches the model.
        obtain ⟨_, other, reached, named, loweredToo⟩ := listed _ ((find? _ rules).1 found)
        cases List.inj_on_of_nodup_map sound.sees.distinct reached reaching named
        exact Except.ok.inj (loweredToo.symm.trans lowered)
    rw [← VisibleField.name, same]
    exact sound.fieldRules reaching lowered
  · obtain ⟨some, visible, reaching, rfl, _⟩ := listed _ ((find? name rules).1 found)
    rw [← Hierarchy.map_reachingFields]
    exact ⟨some, visible.field, List.mem_map_of_mem reaching, rfl⟩

/--
No rule is lost, none is counted twice, and none concerns nothing: the bundle of a valid document
holds exactly what its attributes state.
-/
theorem bundle_statedBy {text : String} {bundle : Bundle} (read : Document.read text = .ok document)
    (valid : (document.validate options).isValid = true)
    (done : (ofDocument document).bundle = .ok bundle) : bundle.StatedBy document := by
  have formed := Document.wellFormed_of_readWith read
  have unique := Document.uniqueNames (document.clean_of_isValid valid .symbols)
  have inheritance : Clean (Hierarchy.check document.models) :=
    document.clean_of_isValid valid .inheritance
  obtain ⟨entries, lowered, done⟩ := Except.bind_eq_ok.1 done
  cases done
  have models : (ofDocument document).hierarchy.models = document.models :=
    Hierarchy.models_ofModels _
  rw [models] at lowered
  obtain ⟨names, complete⟩ := lowerModels_eq_ok _ entries lowered
  -- Each model has its own key.
  have distinct : (entries.map Prod.fst).Nodup := by
    rw [names]
    exact (List.filter_sublist.map _).nodup unique
  have find? (name : String) (policy : ModelPolicy) :
      Bundle.model? ⟨.ofList entries⟩ name = some policy ↔ (name, policy) ∈ entries :=
    NameMap.find?_ofList_eq_some_iff distinct
  refine ⟨fun name => ?_, fun model member concrete => ?_⟩
  · have listed : (∃ policy, (name, policy) ∈ entries) ↔ name ∈ entries.map Prod.fst := by
      simp
    simp only [Option.isSome_iff_exists, find?, listed, names, List.mem_map, List.mem_filter,
      Bool.not_eq_true', and_assoc]
  · obtain ⟨index, here⟩ := List.mem_iff_getElem?.1 member
    have sound : Lowerable document index model :=
      ⟨here, Hierarchy.sees_of_clean unique inheritance here,
        fun base member => Document.checked_of_isValid formed valid member⟩
    obtain ⟨policy, lowered, listed⟩ :=
      complete model (List.mem_filter.2 ⟨member, by simpa using concrete⟩)
    exact ⟨Hierarchy.ancestorModels document.models index, policy,
      Hierarchy.ancestry_ancestorModels unique (Hierarchy.lawful_of_clean unique inheritance) here,
      (find? _ policy).2 listed, sound.lowerModel lowered⟩

/-- A rule of a base, a rule of a field and a base that is reached along two paths. -/
def diamond : String :=
  "abstract model A\x7bid Int @id open Boolean @allow('read',open)@@deny('delete',true)\x7d" ++
    "abstract model B extends A\x7b\x7d abstract model C extends A\x7b\x7d" ++
    "model D extends B,C\x7b@@allow('all',open)\x7d"

def summary? (text model : String) : Option (List (RuleKind × List Operation)) := do
  let document ← (Document.read text).toOption
  let bundle ← (ofDocument document).bundle.toOption
  let policy ← bundle.model? model
  if (document.validate .standard).isValid then
    some (policy.rules.map fun rule => (rule.kind, rule.operations))
  else none

theorem bundle_statedBy_diamond :
    summary? diamond "D" = some [(.deny, [.delete]), (.allow, Operation.all)] ∧
      ∃ document bundle, Document.read diamond = .ok document ∧
        (ofDocument document).bundle = .ok bundle ∧ bundle.StatedBy document := by
  have summary : summary? diamond "D" = some [(.deny, [.delete]), (.allow, Operation.all)] := by
    decide +kernel
  refine ⟨summary, ?_⟩
  simp only [summary?, Option.bind_eq_bind, Option.bind_eq_some_iff, Except.toOption_eq_some]
    at summary
  obtain ⟨document, read, bundle, done, policy, _, summary⟩ := summary
  split at summary
  next valid => exact ⟨document, bundle, read, done, bundle_statedBy read valid done⟩
  next => cases summary

end Schema

end Schemata
