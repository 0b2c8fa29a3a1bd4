import Schemata.Proofs.Schema.Members

set_option autoImplicit false

namespace Schemata.Hierarchy

variable {models : List Model}

theorem exists_foldlM_eq_ok {step : List Nat → Nat → Except (List Nat) (List Nat)}
    (items : List Nat)
    (each : ∀ item ∈ items, ∀ finished, ∃ next, step finished item = .ok next) :
    ∀ finished, ∃ result, items.foldlM step finished = .ok result := by
  induction items with
  | nil => exact fun finished => ⟨finished, rfl⟩
  | cons first rest ih =>
    intro finished
    rw [List.forall_mem_cons] at each
    obtain ⟨next, stepped⟩ := each.1 finished
    obtain ⟨result, folded⟩ := ih each.2 next
    exact ⟨result, by rw [List.foldlM_cons, stepped, Except.ok_bind, folded]⟩

theorem exists_walk_eq_ok (founded : WellFounded (IsBase models)) (fuel : Nat) :
    ∀ path finished node, Leads models path node → ∃ result,
      walk (fun index => (basesAt models index).map Base.index) fuel path finished node =
        .ok result := by
  induction fuel with
  | zero => exact fun path finished node _ => ⟨finished, rfl⟩
  | succ fuel ih =>
    intro path finished node leads
    have each : ∀ child ∈ (basesAt models node).map Base.index, ∀ finished, ∃ next,
        (if child ∈ path then .error (path ++ [child])
          else if child ∈ finished then .ok finished
          else walk (fun index => (basesAt models index).map Base.index) fuel (path ++ [child])
            finished child) = .ok next := by
      intro child isBase finished
      rw [if_neg (leads.not_mem founded isBase)]
      split
      next => exact ⟨finished, rfl⟩
      next =>
        refine ih _ finished child fun index found => leads.expand isBase index ?_
        exact List.perm_append_singleton child path |>.mem_iff.1 found
    obtain ⟨behind, folded⟩ := exists_foldlM_eq_ok _ each finished
    exact ⟨node :: behind, by rw [walk]; exact congrArg (· >>= _) folded⟩

theorem checkCycles_eq_nil (founded : WellFounded (IsBase models)) : checkCycles models = [] := by
  refine List.flatMap_eq_nil_iff.2 fun place _ => ?_
  obtain ⟨result, walked⟩ := exists_walk_eq_ok founded (models.length + 1) [place.2] [] place.2
    (List.forall_mem_singleton.2 (.inl rfl))
  simp only [cycleFrom?, walked]

theorem checkBases_eq_nil (unique : UniqueNames models) (lawful : Lawful models) {model : Model}
    (member : model ∈ models)
    (single : (basesOf models model).countP (·.kind == some .delegate) ≤ 1) :
    checkBases models model = [] := by
  obtain ⟨index, here⟩ := List.mem_iff_getElem?.1 member
  unfold checkBases
  rw [List.append_eq_nil_iff, List.map_eq_nil_iff, List.filter_eq_nil_iff]
  refine ⟨fun name listed => ?_, ?_⟩
  · cases found : models.find? (·.name.name == name.name) with
    | none => simp
    | some base =>
      -- The base is found by its name among the bases, all of which are legal.
      obtain ⟨place, there⟩ := List.mem_iff_getElem?.1 (List.mem_of_find?_eq_some found)
      have named : base.name.name = name.name := by simpa using List.find?_some found
      have isBase : ⟨place, base.baseKind?⟩ ∈ basesOf models model :=
        (mem_basesOf unique).2 ⟨name, listed, base, there, named, rfl⟩
      have legal := lawful.legal index ⟨place, base.baseKind?⟩ (by rwa [basesAt, here])
      simpa [found, Option.isSome_iff_ne_none] using legal
  · rw [reportIf, if_neg]
    simpa using single

structure Faultless (models : List Model) : Prop where
  unique : UniqueNames models
  lawful : Lawful models
  single : ∀ model ∈ models, (basesOf models model).countP (·.kind == some .delegate) ≤ 1
  distinct : ∀ index model, models[index]? = some model →
    ((reachingFields models index model).map VisibleField.name).Nodup

theorem check_eq_nil (faultless : Faultless models) : check models = [] := by
  unfold check
  rw [List.append_eq_nil_iff, List.append_eq_nil_iff]
  refine ⟨⟨?_, checkCycles_eq_nil faultless.lawful.founded⟩, ?_⟩
  · exact List.flatMap_eq_nil_iff.2 fun model member =>
      checkBases_eq_nil faultless.unique faultless.lawful member (faultless.single model member)
  · refine List.flatMap_eq_nil_iff.2 fun place member => ?_
    have here := List.mem_zipIdx_iff_getElem?.1 member
    exact congrArg Checked.diagnostics
      (dedupe_of_distinct _ [] (faultless.distinct place.2 place.1 here))

theorem Faultless.sees (faultless : Faultless models) {index : Nat} {model : Model}
    (here : models[index]? = some model) : Sees models index model :=
  sees_of_clean faultless.unique (check_eq_nil faultless ▸ Clean.nil) here

theorem faultless_of_clean (unique : UniqueNames models) (clean : Clean (check models)) :
    Faultless models := by
  have lawful := lawful_of_clean unique clean
  refine ⟨unique, lawful, fun model member => ?_, fun index model here => ?_⟩
  · rw [check, Clean.append, Clean.append, Clean.flatMap] at clean
    have bases := clean.1.1 model member
    simp only [checkBases, Clean.append, Clean.reportIf_error] at bases
    simpa using bases.2
  · exact (sees_of_clean unique clean here).distinct

end Schemata.Hierarchy
