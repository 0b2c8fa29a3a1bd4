import Schemata.Proofs.Order.Bases
import Schemata.Proofs.Order.Names
import Schemata.Proofs.Order.Passes
import Schemata.Proofs.Order.Groups

/-!
# Candidates and the order of bases

A mixin may come into a model through mixins alone or through a delegate, and its fields count as
reached in the way that is looked at first. If no mixin with a field of a model type comes in both
ways, then the candidates are the same in whatever order the bases stand.
-/

set_option autoImplicit false

namespace Schemata

/--
A mixin with a field of a model type does not come into a concrete model both through mixins alone
and through a delegate.
-/
def Document.SeparatesWays (document : Document) : Prop :=
  ∀ model ∈ document.models, model.isAbstract = false → ∀ mixin delegate,
    Relation.TransGen (document.ExtendsBy .mixin) mixin model →
      document.ReachesDelegate delegate model →
        Relation.TransGen document.IsBase mixin delegate →
          ∀ field ∈ mixin.fields, ((Schema.ofDocument document).typeOf field).model? = none

variable {document : Document} {order : Model → List Ident} {options : ValidationOptions}

theorem Relation.candidate?_of_no_model {schema : Schema} {model : Model} {visible : VisibleField}
    (noModel : (schema.typeOf visible.field).model? = none) :
    candidate? schema model visible = pure none := by
  refine candidate?_of_no_target (Option.eq_none_iff_forall_ne_some.2 fun target found => ?_)
  rw [(target?_eq_some.1 found).2.1] at noModel
  cases noModel

namespace Document

open Hierarchy

theorem reordered_reorder (unambiguous : document.Unambiguous)
    (shuffles : Shuffles order document.models) (known : Faultless document.models) :
    Reordered order document (document.reorder order) := by
  refine ⟨.refl _, shuffles.perm, ?_⟩
  constructor
  case declaration? => exact unambiguous.declaration? (.refl _)
  case enumMember? =>
    exact fun name => unambiguous.enumMember? (.refl _) name (by rw [enums_reorder])
  case fields =>
    intro name
    have fields := (shuffles.fields_perm known name).map Prod.snd
    rwa [List.map_map, List.map_map, ← models_reorder] at fields
  case distinct => exact nodup_fields_ofModels
  case attributes =>
    intro name
    rw [Schema.hierarchy_ofDocument, Schema.hierarchy_ofDocument, models_reorder]
    exact (shuffles.attributes_perm known name).map _

theorem model?_of_both_ways (separated : document.SeparatesWays) (known : Faultless document.models)
    {index : Nat} {model base : Model} (here : document.models[index]? = some model)
    (concrete : model.isAbstract = false) {place : Nat}
    (there : document.models[place]? = some base)
    (through : Way document.models index true place)
    (direct : Way document.models index false place) :
    ∀ field ∈ base.fields, ((Schema.ofDocument document).typeOf field).model? = none := by
  have member := List.mem_of_getElem? here
  have unique : UniqueNames document.models := known.unique
  have clean : Clean (Hierarchy.check document.models) := check_eq_nil known ▸ Clean.nil
  obtain ⟨delegate, reaches, above⟩ := mixins_or_delegate_of_way unique here through base there
  have mixins : Relation.ReflTransGen (document.ExtendsBy .mixin) base model :=
    mixins_or_delegate_of_way unique here direct base there
  rcases Relation.reflTransGen_iff_eq_or_transGen.1 mixins with rfl | mixins
  · have cycle := Relation.TransGen.trans_right above (reaches.transGen unique member)
    exact absurd cycle ((wellFounded_isBase unique clean).transGen.asymmetric _ _ cycle)
  · rcases Relation.reflTransGen_iff_eq_or_transGen.1 above with rfl | above
    · -- What is mixed in is abstract, and so it is no delegate.
      obtain ⟨next, edge, rest⟩ := Relation.TransGen.head'_iff.1 mixins
      obtain ⟨heir, below, entered⟩ := reaches
      have nextDeclared := mem_models_of_reflTransGen (fun _ _ edge => edge.1) member rest
      have heirDeclared := mem_models_of_reflTransGen (fun _ _ isBase => isBase.1) member below
      have isMixin := ((extendsBy_iff unique nextDeclared).1 edge).2
      have isDelegate := ((extendsBy_iff unique heirDeclared).1 entered).2
      cases isMixin.symm.trans isDelegate
    · exact separated model member concrete base delegate mixins reaches above

theorem candidates_of_ancestor (separated : document.SeparatesWays)
    (shuffles : Shuffles order document.models) (known : Faultless document.models) {index : Nat}
    {model : Model} (here : document.models[index]? = some model)
    (concrete : model.isAbstract = false) {there found : Ancestor}
    (isThere : there ∈ ancestorsAt (document.models.map (Model.reorder order)) index)
    (isFound : found ∈ ancestorsAt document.models index) (same : there.index = found.index) :
    (inheritedFields (document.models.map (Model.reorder order)) there).map
        (Relation.candidate? (.ofDocument document) model) =
      (inheritedFields document.models found).map
        (Relation.candidate? (.ofDocument document) model) := by
  have way := shuffles.way (way_of_mem_ancestorsAt isThere)
  have wayToo := way_of_mem_ancestorsAt isFound
  rw [same] at way
  unfold inheritedFields
  rw [List.getElem?_map, same]
  cases place : document.models[found.index]? with
  | none => rfl
  | some base =>
    rw [Option.map_some]
    simp only [List.map_map, Model.fields_reorder, Model.name_reorder]
    refine List.map_congr_left fun field declared => ?_
    have none (viaDelegate : Bool)
        (noModel : ((Schema.ofDocument document).typeOf field).model? = none) :
        Relation.candidate? (.ofDocument document) model
          ⟨field, base.name.name, true, viaDelegate⟩ = pure none :=
      Relation.candidate?_of_no_model noModel
    rw [Function.comp_apply, Function.comp_apply]
    cases through : there.viaDelegate <;> cases throughToo : found.viaDelegate <;>
      rw [through] at way <;> rw [throughToo] at wayToo
    case some.false.true =>
      have noModel := model?_of_both_ways separated known here concrete place wayToo way
      rw [none _ (noModel field declared), none _ (noModel field declared)]
    case some.true.false =>
      have noModel := model?_of_both_ways separated known here concrete place way wayToo
      rw [none _ (noModel field declared), none _ (noModel field declared)]

section

variable (separated : document.SeparatesWays) (shuffles : Shuffles order document.models)
  (known : Faultless document.models) {index : Nat} {model : Model}
  (here : document.models[index]? = some model)

include shuffles known here in
theorem fields_reorder_eq :
    (Schema.ofDocument (document.reorder order)).fields (model.reorder order) =
      reachingFields (document.models.map (Model.reorder order)) index (model.reorder order) := by
  rw [Schema.fields, Schema.hierarchy_ofDocument, models_reorder]
  exact ((shuffles.faultless known).sees (getElem?_reorder here)).fields

include separated shuffles known here

theorem checks_perm (concrete : model.isAbstract = false) :
    (((Schema.ofDocument (document.reorder order)).fields (model.reorder order)).map
        (Relation.candidate? (.ofDocument document) model)).Perm
      (((Schema.ofDocument document).fields model).map
        (Relation.candidate? (.ofDocument document) model)) := by
  have places := shuffles.places_perm known.lawful (List.getElem?_eq_some_iff.1 here).1
  rw [fields_reorder_eq shuffles known here,
    show (Schema.ofDocument document).fields model = _ from (known.sees here).fields]
  unfold reachingFields
  rw [List.map_append, List.map_append, List.map_flatMap, List.map_flatMap]
  refine .append (flatMap_perm_of_map_perm places fun there isThere found isFound same => ?_)
    (.refl _)
  exact candidates_of_ancestor separated shuffles known here concrete isThere isFound same

variable (reordered : Reordered order document (document.reorder order))
include reordered

omit here in
theorem ownCandidates_perm (member : model ∈ document.models) :
    (Relation.ownCandidates (.ofDocument (document.reorder order)) (model.reorder order)).value.Perm
        ((Relation.ownCandidates (.ofDocument document) model).value.map
          (Candidate.reorder order)) ∧
      (Relation.ownCandidates (.ofDocument (document.reorder order))
          (model.reorder order)).diagnostics.Perm
        (Relation.ownCandidates (.ofDocument document) model).diagnostics := by
  cases isAbstract : model.isAbstract with
  | true => simp [Relation.ownCandidates, isAbstract]
  | false =>
    obtain ⟨index, here⟩ := List.mem_iff_getElem?.1 member
    have checks := checks_perm separated shuffles known here isAbstract
    have concrete : (model.reorder order).isAbstract = false := isAbstract
    have same (visible : VisibleField) :=
      Relation.candidate?_reorder reordered.schema model visible
    constructor
    · rw [Relation.value_ownCandidates concrete, Relation.value_ownCandidates isAbstract]
      refine List.Perm.trans (.of_eq ?_) ((checks.filterMap Checked.value).map _)
      rw [List.filterMap_map, List.filterMap_map, List.map_filterMap]
      exact congrArg (List.filterMap · _)
        (funext fun visible => congrArg Checked.value (same visible))
    · rw [Relation.reports_ownCandidates concrete, Relation.reports_ownCandidates isAbstract]
      refine List.Perm.trans (.of_eq ?_) (checks.flatMap_right Checked.diagnostics)
      rw [List.flatMap_map, List.flatMap_map]
      exact congrArg (List.flatMap · _)
        (funext fun visible => (congrArg Checked.diagnostics (same visible)).trans rfl)

omit here in
theorem candidates_perm :
    (Schema.ofDocument (document.reorder order)).candidates.Perm
        ((Schema.ofDocument document).candidates.map (Candidate.reorder order)) ∧
      (Relation.candidates (.ofDocument (document.reorder order))
          (document.reorder order).models).diagnostics.Perm
        (Relation.candidates (.ofDocument document) document.models).diagnostics := by
  have own (model : Model) (member : model ∈ document.models) :=
    ownCandidates_perm separated shuffles known reordered member
  rw [Schema.candidates, Schema.candidates, Schema.models_ofDocument, Schema.models_ofDocument,
    models_reorder, Relation.value_candidates, Relation.value_candidates,
    Relation.reports_candidates, Relation.reports_candidates, List.flatMap_map,
    List.flatMap_map, List.map_flatMap]
  exact ⟨.flatMap_left _ fun model member => (own model member).1,
    .flatMap_left _ fun model member => (own model member).2⟩

end

end Document

end Schemata
