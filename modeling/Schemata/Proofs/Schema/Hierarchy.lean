import Schemata.Schema.Basic

set_option autoImplicit false

namespace Schemata.Hierarchy

theorem mem_dedupe {model : Model} {visible : VisibleField} {rest : List VisibleField} :
    ∀ {kept : List VisibleField}, visible ∈ (dedupe model kept rest).value →
      visible ∈ kept ∨ visible ∈ rest := by
  induction rest with
  | nil => exact fun found => .inl found
  | cons next rest ih =>
    intro kept found
    rw [dedupe] at found
    split at found
    · rcases ih found with found | found
      · rcases List.mem_append.1 found with found | found
        · exact .inl found
        · exact .inr (List.mem_singleton.1 found ▸ List.mem_cons_self)
      · exact .inr (List.mem_cons_of_mem _ found)
    · exact (ih found).imp id (List.mem_cons_of_mem _)

theorem nodup_dedupe {model : Model} {rest : List VisibleField} :
    ∀ {kept : List VisibleField}, (kept.map VisibleField.name).Nodup →
      ((dedupe model kept rest).value.map VisibleField.name).Nodup := by
  induction rest with
  | nil => exact fun distinct => distinct
  | cons next rest ih =>
    intro kept distinct
    rw [dedupe]
    split
    next free =>
      apply ih
      have fresh : next.name ∉ kept.map VisibleField.name := by
        intro taken
        rcases List.mem_map.1 taken with ⟨previous, found, same⟩
        exact List.find?_eq_none.1 free previous found (by simpa using same)
      rw [List.map_append, List.map_cons, List.map_nil]
      exact List.nodup_append.2 ⟨distinct, List.pairwise_singleton _ _,
        fun name found other only same => fresh (by simp_all)⟩
    next => exact ih distinct

variable {models : List Model}

theorem mem_inheritedFields {ancestor : Ancestor} {visible : VisibleField}
    (found : visible ∈ inheritedFields models ancestor) :
    ∃ base ∈ models, visible.field ∈ base.fields := by
  unfold inheritedFields at found
  split at found
  next base declared =>
    obtain ⟨field, own, rfl⟩ := List.mem_map.1 found
    exact ⟨base, List.mem_of_getElem? declared, own⟩
  next => cases found

theorem mem_reachingFields {index : Nat} {model : Model} {visible : VisibleField}
    (member : model ∈ models) (found : visible ∈ reachingFields models index model) :
    ∃ base ∈ models, visible.field ∈ base.fields := by
  rcases List.mem_append.1 found with inherited | own
  · obtain ⟨ancestor, _, inherited⟩ := List.mem_flatMap.1 inherited
    exact mem_inheritedFields inherited
  · obtain ⟨field, declared, rfl⟩ := List.mem_map.1 own
    exact ⟨model, member, declared⟩

theorem models_ofModels (models : List Model) : (ofModels models).models = models := by
  simp [Hierarchy.models, ofModels, Function.comp_def, viewAt]

theorem nodup_fields_ofModels (name : String) :
    (((ofModels models).fields name).map VisibleField.name).Nodup := by
  unfold fields view?
  cases view : (ofModels models).views.find? (·.model.name.name == name) with
  | none => exact List.Pairwise.nil
  | some own =>
    rcases List.mem_map.1 (List.mem_of_find?_eq_some view) with ⟨⟨model, index⟩, _, rfl⟩
    exact nodup_dedupe List.Pairwise.nil

theorem mem_fields_ofModels {name : String} {visible : VisibleField}
    (found : visible ∈ (ofModels models).fields name) :
    ∃ base ∈ models, visible.field ∈ base.fields := by
  unfold fields view? at found
  cases view : (ofModels models).views.find? (·.model.name.name == name) with
  | none => simp [view] at found
  | some own =>
    rw [view] at found
    obtain ⟨⟨model, index⟩, place, rfl⟩ := List.mem_map.1 (List.mem_of_find?_eq_some view)
    have member : model ∈ models := List.fst_mem_of_mem_zipIdx place
    rcases mem_dedupe found with found | found
    · cases found
    · exact mem_reachingFields member found

end Schemata.Hierarchy

namespace Schemata.Schema

theorem hierarchy_ofDocument (document : Document) :
    (Schema.ofDocument document).hierarchy = .ofModels document.models :=
  rfl

theorem models_ofDocument (document : Document) :
    (Schema.ofDocument document).hierarchy.models = document.models :=
  Hierarchy.models_ofModels _

end Schemata.Schema
