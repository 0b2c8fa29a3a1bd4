import Schemata.Proofs.Order.Reorder
import Schemata.Proofs.Schema.Legality
import Schemata.Proofs.Schema.Ways

set_option autoImplicit false

namespace Schemata.Hierarchy

structure Shuffles (order : Model → List Ident) (models : List Model) : Prop where
  perm : ∀ model ∈ models, (order model).Perm model.bases
  unique : UniqueNames models

variable {order : Model → List Ident} {models : List Model} (shuffles : Shuffles order models)

theorem uniqueNames_reorder (unique : UniqueNames models) :
    UniqueNames (models.map (Model.reorder order)) := by
  unfold UniqueNames at unique ⊢
  rw [List.map_map]
  exact unique

theorem indexOf?_reorder (name : String) :
    indexOf? (models.map (Model.reorder order)) name = indexOf? models name :=
  List.findIdx?_map

theorem getElem?_reorder {index : Nat} {model : Model} (here : models[index]? = some model) :
    (models.map (Model.reorder order))[index]? = some (model.reorder order) := by
  rw [List.getElem?_map, here, Option.map_some]

namespace Shuffles

include shuffles

theorem basesOf_perm {model : Model} (member : model ∈ models) :
    (basesOf (models.map (Model.reorder order)) (model.reorder order)).Perm
      (basesOf models model) := by
  have same : basesOf (models.map (Model.reorder order)) (model.reorder order) =
      basesOf models { model with bases := order model } := by
    unfold basesOf
    refine congrArg (List.filterMap · (order model)) (funext fun name => ?_)
    rw [indexOf?_reorder]
    cases indexOf? models name.name with
    | none => rfl
    | some index =>
      simp only [Option.bind_eq_bind, Option.bind_some, List.getElem?_map]
      cases models[index]? <;> rfl
  rw [same]
  exact (shuffles.perm model member).filterMap _

theorem basesAt_perm (index : Nat) :
    (basesAt (models.map (Model.reorder order)) index).Perm (basesAt models index) := by
  unfold basesAt
  rw [List.getElem?_map]
  cases here : models[index]? with
  | none => exact .refl _
  | some model => exact shuffles.basesOf_perm (List.mem_of_getElem? here)

theorem isBase_iff {base index : Nat} :
    IsBase (models.map (Model.reorder order)) base index ↔ IsBase models base index :=
  ((shuffles.basesAt_perm index).map Base.index).mem_iff

theorem way {root : Nat} {viaDelegate : Bool} {index : Nat}
    (way : Way (models.map (Model.reorder order)) root viaDelegate index) :
    Way models root viaDelegate index := by
  induction way with
  | start => exact .start
  | step _ member isKind ih => exact .step ih ((shuffles.basesAt_perm _).mem_iff.1 member) isKind

theorem lawful (known : Lawful models) : Lawful (models.map (Model.reorder order)) := by
  refine ⟨Subrelation.wf (fun isBase => shuffles.isBase_iff.1 isBase) known.founded, ?_⟩
  exact fun index base member =>
    known.legal index base ((shuffles.basesAt_perm index).mem_iff.1 member)

theorem places_perm (known : Lawful models) {index : Nat} (inside : index < models.length) :
    ((ancestorsAt (models.map (Model.reorder order)) index).map Ancestor.index).Perm
      ((ancestorsAt models index).map Ancestor.index) := by
  have same : IsBase (models.map (Model.reorder order)) = IsBase models :=
    funext fun base => funext fun index => propext shuffles.isBase_iff
  have places := places_ancestorsAt known inside
  have others := places_ancestorsAt (shuffles.lawful known) (by rwa [List.length_map])
  refine (List.perm_ext_iff_of_nodup others.once places.once).2 fun place => ?_
  rw [others.mem_iff, places.mem_iff, same]

theorem reachingFields_perm (known : Lawful models) {index : Nat} {model : Model}
    (here : models[index]? = some model) :
    ((reachingFields (models.map (Model.reorder order)) index (model.reorder order)).map
        fun visible => (visible.declaredIn, visible.field)).Perm
      ((reachingFields models index model).map
        fun visible => (visible.declaredIn, visible.field)) := by
  have places := shuffles.places_perm known (List.getElem?_eq_some_iff.1 here).1
  unfold reachingFields
  rw [List.map_append, List.map_append, List.map_flatMap, List.map_flatMap]
  refine .append (flatMap_perm_of_map_perm places fun there _ here _ same => ?_) (.refl _)
  unfold inheritedFields
  rw [List.getElem?_map, same]
  cases models[here.index]? with
  | none => rfl
  | some base => simp [Function.comp_def]

theorem visibleAttributes_perm (known : Lawful models) {index : Nat} {model : Model}
    (here : models[index]? = some model) :
    (visibleAttributes (models.map (Model.reorder order)) index (model.reorder order)).Perm
      (visibleAttributes models index model) := by
  have places := shuffles.places_perm known (List.getElem?_eq_some_iff.1 here).1
  unfold visibleAttributes
  refine .append (flatMap_perm_of_map_perm places fun there _ here _ same => ?_) (.refl _)
  unfold inheritedAttributes
  rw [List.getElem?_map, same]
  cases models[here.index]? <;> rfl

theorem faultless (known : Faultless models) : Faultless (models.map (Model.reorder order)) where
  unique := uniqueNames_reorder known.unique
  lawful := shuffles.lawful known.lawful
  single model member := by
    obtain ⟨original, declared, rfl⟩ := List.mem_map.1 member
    rw [(shuffles.basesOf_perm declared).countP_eq]
    exact known.single original declared
  distinct index model here := by
    rw [List.getElem?_map] at here
    obtain ⟨original, there, rfl⟩ := Option.map_eq_some_iff.1 here
    have names := (shuffles.reachingFields_perm known.lawful there).map (·.2.name.name)
    rw [List.map_map, List.map_map] at names
    exact names.nodup_iff.2 (known.distinct index original there)

theorem fields_perm (known : Faultless models) (name : String) :
    (((ofModels (models.map (Model.reorder order))).fields name).map
        fun visible => (visible.declaredIn, visible.field)).Perm
      (((ofModels models).fields name).map
        fun visible => (visible.declaredIn, visible.field)) := by
  cases found : indexOf? models name with
  | none =>
    rw [fields, view?_of_unknown ((indexOf?_reorder name).trans found), fields,
      view?_of_unknown found]
  | some index =>
    obtain ⟨model, here, rfl⟩ := (indexOf?_eq_some_iff known.unique).1 found
    have sees := (shuffles.faultless known).sees (getElem?_reorder here)
    rw [(known.sees here).fields, ← Model.name_reorder model, sees.fields]
    exact shuffles.reachingFields_perm known.lawful here

theorem attributes_perm (known : Faultless models) (name : String) :
    ((ofModels (models.map (Model.reorder order))).attributes name).Perm
      ((ofModels models).attributes name) := by
  cases found : indexOf? models name with
  | none =>
    rw [attributes, view?_of_unknown ((indexOf?_reorder name).trans found), attributes,
      view?_of_unknown found]
  | some index =>
    obtain ⟨model, here, rfl⟩ := (indexOf?_eq_some_iff known.unique).1 found
    have sees := (shuffles.faultless known).sees (getElem?_reorder here)
    rw [(known.sees here).attributes, ← Model.name_reorder model, sees.attributes]
    exact shuffles.visibleAttributes_perm known.lawful here

end Shuffles

end Schemata.Hierarchy
