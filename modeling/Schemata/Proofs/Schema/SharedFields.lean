import Mathlib.Data.List.Nodup
import Schemata.Proofs.Schema.Members

set_option autoImplicit false

namespace Schemata

def Schema.SharesFields (schema : Schema) (base model : Model) : Prop :=
  ∀ name visible, schema.field? base name = some visible →
    ∃ other, schema.field? model name = some other ∧ other.field = visible.field

theorem Schema.SharesFields.refl (schema : Schema) (model : Model) :
    schema.SharesFields model model :=
  fun _ visible found => ⟨visible, found, rfl⟩

theorem Schema.field?_eq_some {schema : Schema} {model : Model} {visible : VisibleField}
    (distinct : ((schema.fields model).map VisibleField.name).Nodup)
    (found : visible ∈ schema.fields model) :
    schema.field? model visible.name = some visible := by
  cases first : schema.field? model visible.name with
  | none => simpa using List.find?_eq_none.1 first visible found
  | some other =>
    have named : other.name = visible.name := by simpa using List.find?_some first
    rw [List.inj_on_of_nodup_map distinct (List.mem_of_find?_eq_some first) found named]

theorem Schema.field?_of_mem {document : Document} {model : Model} {visible : VisibleField}
    (found : visible ∈ (ofDocument document).fields model) :
    (ofDocument document).field? model visible.name = some visible :=
  field?_eq_some (Hierarchy.nodup_fields_ofModels model.name.name) found

namespace Document

variable {document : Document} {options : ValidationOptions} {base model : Model}

theorem sharesFields (valid : (document.validate options).isValid = true)
    (member : model ∈ document.models)
    (isExtended : Relation.TransGen document.IsBase base model) :
    (Schema.ofDocument document).SharesFields base model := by
  have unique : UniqueNames document.models :=
    Document.uniqueNames (document.clean_of_isValid valid .symbols)
  have inheritance : Clean (Hierarchy.check document.models) :=
    document.clean_of_isValid valid .inheritance
  have lawful := Hierarchy.lawful_of_clean unique inheritance
  obtain ⟨index, here⟩ := List.mem_iff_getElem?.1 member
  obtain ⟨place, there, _⟩ := Hierarchy.transGen_isBase_of_models unique isExtended here
  have sees := Hierarchy.sees_of_clean unique inheritance here
  have fieldsOfModel : (Schema.ofDocument document).fields model = _ := sees.fields
  have fieldsOfBase : (Schema.ofDocument document).fields base = _ :=
    (Hierarchy.sees_of_clean unique inheritance there).fields
  -- The sources of the base are ancestors of the model as well.
  have sources : Hierarchy.sources document.models place base ⊆
      Hierarchy.sources document.models index model := by
    have ancestors := Hierarchy.ancestry_ancestorModels unique lawful here
    refine fun source found => List.mem_append_left _ ((ancestors.mem_iff source).2 ?_)
    rcases List.mem_append.1 found with above | own
    · have below := Hierarchy.ancestry_ancestorModels unique lawful there
      exact ((below.mem_iff source).1 above).trans isExtended
    · exact List.mem_singleton.1 own ▸ isExtended
  intro name visible found
  have named : visible.name = name := by simpa using List.find?_some found
  have declared : visible.field ∈ (Hierarchy.sources document.models place base).flatMap
      Model.fields := by
    rw [← Hierarchy.map_reachingFields, ← fieldsOfBase]
    exact List.mem_map_of_mem (List.mem_of_find?_eq_some found)
  obtain ⟨source, listed, own⟩ := List.mem_flatMap.1 declared
  have reached : visible.field ∈ ((Schema.ofDocument document).fields model).map
      VisibleField.field := by
    rw [fieldsOfModel, Hierarchy.map_reachingFields]
    exact List.mem_flatMap.2 ⟨source, sources listed, own⟩
  obtain ⟨other, seen, same⟩ := List.mem_map.1 reached
  have sameName : other.name = name := by rw [← named, VisibleField.name, same, VisibleField.name]
  exact ⟨other, sameName ▸ Schema.field?_eq_some (fieldsOfModel ▸ sees.distinct) seen, same⟩

theorem sharesFields_of_mem_sources (valid : (document.validate options).isValid = true)
    {index : Nat} (here : document.models[index]? = some model)
    (above : base ∈ Hierarchy.sources document.models index model) :
    (Schema.ofDocument document).SharesFields base model := by
  rcases List.mem_append.1 above with ancestor | own
  · have unique := Document.uniqueNames (document.clean_of_isValid valid .symbols)
    have inheritance : Clean (Hierarchy.check document.models) :=
      document.clean_of_isValid valid .inheritance
    have ancestors := Hierarchy.ancestry_ancestorModels unique
      (Hierarchy.lawful_of_clean unique inheritance) here
    exact document.sharesFields valid (List.mem_of_getElem? here)
      ((ancestors.mem_iff base).1 ancestor)
  · cases List.mem_singleton.1 own
    exact .refl _ _

theorem declares_of_mem_fields (valid : (document.validate options).isValid = true)
    (member : model ∈ document.models) {visible : VisibleField}
    (found : visible ∈ (Schema.ofDocument document).fields model) :
    ∃ source ∈ document.models, visible.field ∈ source.fields ∧
      (Schema.ofDocument document).SharesFields source model := by
  have unique : UniqueNames document.models :=
    Document.uniqueNames (document.clean_of_isValid valid .symbols)
  rcases List.mem_iff_getElem?.1 member with ⟨index, here⟩
  have sees := Hierarchy.sees_of_clean unique (document.clean_of_isValid valid .inheritance) here
  have fields : (Schema.ofDocument document).fields model = _ := sees.fields
  have reaching : visible.field ∈
      (Hierarchy.sources document.models index model).flatMap Model.fields := by
    rw [← Hierarchy.map_reachingFields, ← fields]
    exact List.mem_map_of_mem found
  rcases List.mem_flatMap.1 reaching with ⟨source, above, declared⟩
  exact ⟨source, Hierarchy.sources_subset here above, declared,
    sharesFields_of_mem_sources valid here above⟩

theorem declares_of_mem_attributes (valid : (document.validate options).isValid = true)
    (member : model ∈ document.models) {visible : VisibleAttribute}
    (found : visible ∈ (Schema.ofDocument document).attributes model) :
    ∃ source ∈ document.models, visible.applied ∈ source.attributes ∧
      (Schema.ofDocument document).SharesFields source model := by
  have unique : UniqueNames document.models :=
    Document.uniqueNames (document.clean_of_isValid valid .symbols)
  rcases List.mem_iff_getElem?.1 member with ⟨index, here⟩
  have sees := Hierarchy.sees_of_clean unique (document.clean_of_isValid valid .inheritance) here
  have attributes : (Schema.ofDocument document).attributes model = _ := sees.attributes
  rw [attributes] at found
  rcases Hierarchy.mem_visibleAttributes found with ⟨source, above, declared⟩
  exact ⟨source, Hierarchy.sources_subset here above, declared,
    sharesFields_of_mem_sources valid here above⟩

end Document

end Schemata
