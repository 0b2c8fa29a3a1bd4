import Schemata.Proofs.Schema.Ancestry

set_option autoImplicit false

namespace Schemata.Hierarchy

variable {models : List Model} {index : Nat} {model : Model}

/-- The models whose members a model sees, itself last. -/
def sources (models : List Model) (index : Nat) (model : Model) : List Model :=
  ancestorModels models index ++ [model]

theorem sources_subset (here : models[index]? = some model) :
    sources models index model ⊆ models := by
  intro source found
  rcases List.mem_append.1 found with above | own
  · obtain ⟨ancestor, _, there⟩ := List.mem_filterMap.1 above
    exact List.mem_of_getElem? there
  · exact List.mem_singleton.1 own ▸ List.mem_of_getElem? here

theorem view?_ofModels (unique : UniqueNames models) (here : models[index]? = some model) :
    (ofModels models).view? model.name.name = some (viewAt models index model) := by
  have place : (model, index) ∈ models.zipIdx := List.mem_zipIdx_iff_getElem?.2 here
  unfold view?
  cases found : (ofModels models).views.find? (·.model.name.name == model.name.name) with
  | none =>
    have other := List.find?_eq_none.1 found (viewAt models index model)
      (List.mem_map.2 ⟨(model, index), place, rfl⟩)
    simp [viewAt] at other
  | some view =>
    have named := List.find?_some found
    obtain ⟨⟨other, there⟩, listed, rfl⟩ := List.mem_map.1 (List.mem_of_find?_eq_some found)
    have known : models[there]? = some other := List.mem_zipIdx_iff_getElem?.1 listed
    cases index_eq_of_name unique known here (by simpa [viewAt] using named)
    cases Option.some.inj (known.symm.trans here)
    rfl

theorem view?_of_unknown {name : String} (unknown : indexOf? models name = none) :
    (ofModels models).view? name = none := by
  unfold indexOf? at unknown
  rw [List.findIdx?_eq_none_iff] at unknown
  refine List.find?_eq_none.2 fun view member => ?_
  obtain ⟨place, listed, rfl⟩ := List.mem_map.1 member
  simpa [viewAt] using unknown place.1 (List.fst_mem_of_mem_zipIdx listed)

theorem flatMap_ancestors {α : Type} {reaching : Ancestor → List α} {passed : Model → List α}
    (known : ∀ ancestor base, models[ancestor.index]? = some base →
      reaching ancestor = passed base)
    (unknown : ∀ ancestor, models[ancestor.index]? = none → reaching ancestor = [])
    (ancestors : List Ancestor) :
    ancestors.flatMap reaching =
      (ancestors.filterMap fun ancestor => models[ancestor.index]?).flatMap passed := by
  induction ancestors with
  | nil => rfl
  | cons ancestor rest ih =>
    cases here : models[ancestor.index]? with
    | none => simp [ih, here, unknown ancestor here]
    | some base => simp [ih, here, known ancestor base here]

def passedAttributes (base : Model) : List VisibleAttribute :=
  (base.attributes.filter fun applied => !ownAttributes.contains applied.name.name).map
    fun applied => ⟨applied, base.name.name⟩

theorem visibleAttributes_eq :
    visibleAttributes models index model =
      (ancestorModels models index).flatMap passedAttributes ++
        model.attributes.map fun applied => ⟨applied, model.name.name⟩ := by
  have inherited : ∀ ancestors : List Ancestor, ancestors.flatMap (inheritedAttributes models) =
      (ancestors.filterMap fun ancestor => models[ancestor.index]?).flatMap passedAttributes :=
    flatMap_ancestors
      (fun ancestor base known => by rw [inheritedAttributes, known, passedAttributes])
      (fun ancestor unknown => by rw [inheritedAttributes, unknown])
  rw [visibleAttributes, inherited, ancestorModels]

theorem mem_visibleAttributes {visible : VisibleAttribute}
    (found : visible ∈ visibleAttributes models index model) :
    ∃ source ∈ sources models index model, visible.applied ∈ source.attributes := by
  rw [visibleAttributes_eq] at found
  rcases List.mem_append.1 found with inherited | own
  · obtain ⟨base, above, inherited⟩ := List.mem_flatMap.1 inherited
    obtain ⟨applied, declared, rfl⟩ := List.mem_map.1 inherited
    exact ⟨base, List.mem_append_left _ above, (List.mem_filter.1 declared).1⟩
  · obtain ⟨applied, declared, rfl⟩ := List.mem_map.1 own
    exact ⟨model, List.mem_append_right _ (List.mem_singleton.2 rfl), declared⟩

theorem mem_attributes_ofModels {name : String} {visible : VisibleAttribute}
    (found : visible ∈ (ofModels models).attributes name) :
    ∃ source ∈ models, visible.applied ∈ source.attributes := by
  unfold attributes view? at found
  cases view : (ofModels models).views.find? (·.model.name.name == name) with
  | none => simp [view] at found
  | some own =>
    rw [view] at found
    obtain ⟨⟨model, index⟩, place, rfl⟩ := List.mem_map.1 (List.mem_of_find?_eq_some view)
    obtain ⟨source, above, declared⟩ := mem_visibleAttributes found
    exact ⟨source, sources_subset (List.mem_zipIdx_iff_getElem?.1 place) above, declared⟩

theorem map_visibleAttributes (keep : Attribute → Bool)
    (inherited : ∀ applied, keep applied = true → applied.name.name ∉ ownAttributes) :
    ((visibleAttributes models index model).map VisibleAttribute.applied).filter keep =
      ((sources models index model).flatMap Model.attributes).filter keep := by
  -- Being passed on takes nothing away from attributes of that kind.
  have passed (base : Model) :
      ((passedAttributes base).map VisibleAttribute.applied).filter keep =
        base.attributes.filter keep := by
    simp only [passedAttributes, List.map_map, Function.comp_def, List.map_id', List.filter_filter]
    refine List.filter_congr fun applied _ => ?_
    by_cases kept : keep applied = true
    next => simp [kept, inherited applied kept]
    next => simp [kept]
  rw [visibleAttributes_eq, sources]
  simp [List.map_flatMap, List.filter_flatMap, passed, Function.comp_def]

theorem map_reachingFields_eq {α : Type} {read : VisibleField → α} {passed : Model → List α}
    (reads : ∀ (base : Model) (viaDelegate : Bool),
      (base.fields.map fun field => read ⟨field, base.name.name, true, viaDelegate⟩) =
        passed base) :
    (reachingFields models index model).map read =
      (ancestorModels models index).flatMap passed ++
        model.fields.map fun field => read ⟨field, model.name.name, false, false⟩ := by
  have inherited : ∀ ancestors : List Ancestor,
      ancestors.flatMap (fun ancestor => (inheritedFields models ancestor).map read) =
        (ancestors.filterMap fun ancestor => models[ancestor.index]?).flatMap passed :=
    flatMap_ancestors
      (fun ancestor base known => by
        rw [inheritedFields, known, List.map_map, ← reads base ancestor.viaDelegate]
        rfl)
      (fun ancestor unknown => by rw [inheritedFields, unknown, List.map_nil])
  rw [reachingFields, List.map_append, List.map_flatMap, inherited, ancestorModels, List.map_map]
  rfl

theorem map_reachingFields :
    (reachingFields models index model).map VisibleField.field =
      (sources models index model).flatMap Model.fields := by
  rw [map_reachingFields_eq fun base _ => List.map_id' base.fields, sources, List.flatMap_append]
  simp

def OfOneBase (previous next : VisibleField) : Prop :=
  next.inherited = true ∧ previous.declaredIn = next.declaredIn

theorem ofOneBase_of_clash {previous next : VisibleField}
    (clean : Clean (clash model previous next)) : OfOneBase previous next := by
  unfold clash at clean
  simp only at clean
  split at clean
  next => split at clean <;> simp at clean
  next inherited =>
    split at clean
    next same => exact ⟨by simpa using inherited, by simpa using same⟩
    next => simp at clean

theorem ofOneBase_of_dedupe (rest : List VisibleField) : ∀ kept : List VisibleField,
    Clean (dedupe model kept rest).diagnostics →
      rest.Pairwise (fun previous next => previous.name = next.name → OfOneBase previous next) ∧
        ∀ next ∈ rest, ∀ previous, kept.find? (·.name == next.name) = some previous →
          OfOneBase previous next := by
  induction rest with
  | nil => exact fun kept _ => ⟨List.Pairwise.nil, fun _ found => absurd found List.not_mem_nil⟩
  | cons first rest ih =>
    -- Fields are kept under names that are free so far. A field of a name that is taken comes from
    -- the base of the field that took it, and so do all later ones of that name.
    intro kept clean
    rw [dedupe] at clean
    split at clean
    next free =>
      obtain ⟨pairwise, behind⟩ := ih _ clean
      refine ⟨List.pairwise_cons.2 ⟨fun next found same => ?_, pairwise⟩, ?_⟩
      · refine behind next found first ?_
        rw [List.find?_append, ← same, free]
        simp
      · refine List.forall_mem_cons.2
          ⟨fun previous taken => ?_, fun next found previous taken => ?_⟩
        · rw [free] at taken
          cases taken
        · refine behind next found previous ?_
          rw [List.find?_append, taken]
          rfl
    next previous taken =>
      simp only [Clean.append] at clean
      have here := ofOneBase_of_clash clean.1
      obtain ⟨pairwise, behind⟩ := ih kept clean.2
      refine ⟨List.pairwise_cons.2 ⟨fun next found same => ?_, pairwise⟩, ?_⟩
      · have there := behind next found previous (same ▸ taken)
        exact ⟨there.1, here.2.symm.trans there.2⟩
      · refine List.forall_mem_cons.2 ⟨fun other known => ?_, behind⟩
        cases Option.some.inj (known.symm.trans taken)
        exact here

theorem dedupe_of_distinct (rest : List VisibleField) : ∀ kept : List VisibleField,
    ((kept ++ rest).map VisibleField.name).Nodup → dedupe model kept rest = ⟨kept ++ rest, []⟩ := by
  induction rest with
  | nil => exact fun kept _ => by rw [dedupe, List.append_nil]
  | cons next rest ih =>
    intro kept distinct
    have free : kept.find? (·.name == next.name) = none := by
      refine List.find?_eq_none.2 fun previous found same => ?_
      rw [List.map_append, List.nodup_append] at distinct
      exact distinct.2.2 previous.name (List.mem_map_of_mem found) next.name List.mem_cons_self
        (by simpa using same)
    rw [dedupe, free]
    simpa using ih (kept ++ [next]) (by simpa using distinct)

theorem distinct_fields (clean : Clean (visibleFields models index model).diagnostics) :
    (model.fields.map fun field => field.name.name).Nodup := by
  have pairwise := (ofOneBase_of_dedupe _ _ clean).1
  rw [reachingFields, List.pairwise_append, List.pairwise_map] at pairwise
  rw [List.Nodup, List.pairwise_map]
  -- Fields of the model itself are inherited from no base.
  exact pairwise.2.1.imp fun shared same => by simpa [OfOneBase] using (shared same).1

theorem declaredIn_of_inherited {ancestor : Ancestor} {visible : VisibleField}
    (found : visible ∈ inheritedFields models ancestor) :
    ∃ base, models[ancestor.index]? = some base ∧ visible.declaredIn = base.name.name := by
  unfold inheritedFields at found
  split at found
  next base known =>
    obtain ⟨field, _, rfl⟩ := List.mem_map.1 found
    exact ⟨base, known, rfl⟩
  next => cases found

theorem inherited_of_mem {ancestor : Ancestor} {visible : VisibleField}
    (found : visible ∈ inheritedFields models ancestor) : visible.inherited = true := by
  unfold inheritedFields at found
  split at found
  next =>
    obtain ⟨field, _, rfl⟩ := List.mem_map.1 found
    rfl
  next => cases found

theorem distinct_reachingFields (unique : UniqueNames models) (lawful : Lawful models)
    (here : models[index]? = some model)
    (clean : ∀ place base, models[place]? = some base →
      Clean (visibleFields models place base).diagnostics) :
    ((reachingFields models index model).map VisibleField.name).Nodup := by
  have shared := (ofOneBase_of_dedupe _ _ (clean index model here)).1
  have places := (places_ancestorsAt lawful (List.getElem?_eq_some_iff.1 here).1).once
  rw [reachingFields, List.pairwise_append, List.pairwise_flatMap] at shared
  rw [List.Nodup, List.pairwise_map] at places
  rw [List.Nodup, List.pairwise_map, reachingFields, List.pairwise_append, List.pairwise_flatMap]
  refine ⟨⟨fun ancestor _ => ?_, ?_⟩, ?_, fun previous inherited next own same => ?_⟩
  · unfold inheritedFields
    split
    next base known =>
      have distinct := distinct_fields (clean _ base known)
      rw [List.Nodup, List.pairwise_map] at distinct
      exact List.pairwise_map.2 distinct
    next => exact List.Pairwise.nil
  · -- Fields of one name would come from one base, but each base is an ancestor once.
    refine (shared.1.2.and places).imp fun together previous isPrevious next isNext same => ?_
    obtain ⟨first, there, declared⟩ := declaredIn_of_inherited isPrevious
    obtain ⟨second, known, declaredToo⟩ := declaredIn_of_inherited isNext
    have oneBase := (together.1 previous isPrevious next isNext same).2
    have named : first.name.name = second.name.name := by rw [← declared, oneBase, declaredToo]
    exact together.2 (index_eq_of_name unique there known named)
  · have distinct := distinct_fields (clean index model here)
    rw [List.Nodup, List.pairwise_map] at distinct
    exact List.pairwise_map.2 distinct
  · -- An own field that shares a name would have to be inherited.
    have oneBase := (shared.2.2 previous inherited next own same).1
    obtain ⟨field, _, rfl⟩ := List.mem_map.1 own
    cases oneBase

structure Sees (models : List Model) (index : Nat) (model : Model) : Prop where
  fields : (ofModels models).fields model.name.name = reachingFields models index model
  distinct : ((reachingFields models index model).map VisibleField.name).Nodup
  attributes : (ofModels models).attributes model.name.name = visibleAttributes models index model

theorem sees_of_clean (unique : UniqueNames models) (clean : Clean (check models))
    (here : models[index]? = some model) : Sees models index model := by
  have lawful := lawful_of_clean unique clean
  rw [check, Clean.append] at clean
  have distinct := distinct_reachingFields unique lawful here fun place base known =>
    Clean.flatMap.1 clean.2 (base, place) (List.mem_zipIdx_iff_getElem?.2 known)
  refine ⟨?_, distinct, ?_⟩
  · rw [fields, view?_ofModels unique here]
    exact congrArg Checked.value (dedupe_of_distinct _ [] distinct)
  · rw [attributes, view?_ofModels unique here]
    rfl

end Schemata.Hierarchy
