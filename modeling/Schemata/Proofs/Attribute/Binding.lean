import Schemata.Attribute.Binding

set_option autoImplicit false

namespace Schemata

namespace Slot

variable {attr : String}

theorem place_eq_ok {slots placed : List Slot} {argument : Argument}
    (taken : place attr slots argument = .ok placed) :
    ∃ index param, indexFor? slots argument = some index ∧ slots[index]? = some ⟨param, none⟩ ∧
      placed = slots.set index ⟨param, some argument⟩ := by
  unfold place at taken
  split at taken
  next => cases taken
  next index isIndex =>
    split at taken
    next param free =>
      cases taken
      exact ⟨index, param, isIndex, free, rfl⟩
    next => cases taken
    next => cases taken

theorem param_placeAll (arguments : List Argument) : ∀ slots : List Slot,
    (placeAll attr slots arguments).1.map Slot.param = slots.map Slot.param := by
  induction arguments with
  | nil => exact fun slots => rfl
  | cons argument rest ih =>
    intro slots
    rw [placeAll]
    split
    next placed taken =>
      -- Placing an argument leaves the parameter of its slot as it is.
      obtain ⟨index, param, _, free, rfl⟩ := place_eq_ok taken
      rw [ih, List.map_set]
      refine List.ext_getElem? fun position => ?_
      rw [List.getElem?_set]
      split
      next same =>
        subst same
        rw [List.getElem?_map, free]
        simp [(List.getElem?_eq_some_iff.1 free).1]
      next => rfl
    next => exact ih slots

theorem argument_placeAll (arguments : List Argument) : ∀ slots : List Slot,
    ∀ slot ∈ (placeAll attr slots arguments).1, ∀ argument, slot.argument = some argument →
      argument ∈ arguments ∨ ∃ earlier ∈ slots, earlier.argument = some argument := by
  induction arguments with
  | nil => exact fun slots slot found argument taken => .inr ⟨slot, found, taken⟩
  | cons first rest ih =>
    intro slots slot found argument taken
    rw [placeAll] at found
    split at found
    next placed stepped =>
      obtain ⟨index, param, _, _, rfl⟩ := place_eq_ok stepped
      rcases ih _ slot found argument taken with behind | ⟨earlier, known, here⟩
      · exact .inl (List.mem_cons_of_mem _ behind)
      · rcases List.mem_or_eq_of_mem_set known with known | rfl
        · exact .inr ⟨earlier, known, here⟩
        · cases here
          exact .inl List.mem_cons_self
    next =>
      exact (ih slots slot found argument taken).imp (List.mem_cons_of_mem _) id

theorem getElem?_placeAll {index : Nat} {param : AttributeParam} {argument : Argument}
    (rest : List Argument) : ∀ slots : List Slot, slots[index]? = some ⟨param, some argument⟩ →
      (placeAll attr slots rest).1[index]? = some ⟨param, some argument⟩ := by
  induction rest with
  | nil => exact fun slots taken => taken
  | cons next rest ih =>
    intro slots taken
    rw [placeAll]
    split
    next placed stepped =>
      rcases place_eq_ok stepped with ⟨other, free, _, isFree, rfl⟩
      refine ih _ ?_
      by_cases same : other = index
      next =>
        subst same
        cases isFree.symm.trans taken
      next => rw [List.getElem?_set_ne same, taken]
    next => exact ih slots taken

end Slot

/-- The argument goes to the parameter, when that comes first. -/
def Argument.suits (argument : Argument) (param : AttributeParam) : Bool :=
  match argument.name? with
  | some name => name.name == param.name.name
  | none => param.isPositional

theorem Slot.place_cons {attr : String} {argument : Argument} {param : AttributeParam}
    (suits : argument.suits param = true) (rest : List Slot) :
    place attr (⟨param, none⟩ :: rest) argument = .ok (⟨param, some argument⟩ :: rest) := by
  have first : indexFor? (⟨param, none⟩ :: rest) argument = some 0 := by
    unfold indexFor?
    unfold Argument.suits at suits
    revert suits
    cases argument.name? with
    | some name =>
      intro suits
      simp only [List.findIdx?_cons, BEq.comm, suits, if_true]
    | none =>
      intro suits
      simp only [List.findIdx?_cons, isOpen, suits, Option.isNone_none, Bool.and_self, if_true]
  rw [place, first]
  rfl

variable {applied : Attribute} {decl : AttributeDecl} {bounds : List Bound}

namespace Attribute

theorem slots_of_bind (bound : applied.bind decl = .ok bounds) :
    ∃ slots : List Slot, slots.map Slot.param = decl.params ∧ bounds = slots.filterMap Slot.bound? ∧
      (∀ slot ∈ slots, Slot.lack applied slot = none) ∧
      ∀ slot ∈ slots, ∀ argument, slot.argument = some argument →
        argument ∈ applied.arguments := by
  unfold bind at bound
  simp only at bound
  split at bound
  next complete =>
    cases bound
    rw [List.isEmpty_iff, List.append_eq_nil_iff, List.filterMap_eq_nil_iff] at complete
    refine ⟨_, ?_, rfl, complete.2, fun slot found argument taken => ?_⟩
    · rw [Slot.param_placeAll, List.map_map]
      exact List.map_id _
    · rcases Slot.argument_placeAll _ _ slot found argument taken with
        given | ⟨earlier, known, here⟩
      · exact given
      · obtain ⟨param, _, rfl⟩ := List.mem_map.1 known
        cases here
  next => cases bound

theorem errors_ne_nil_of_bind {errors : List BindError}
    (failed : applied.bind decl = .error errors) : errors ≠ [] := by
  unfold bind at failed
  simp only at failed
  split at failed
  next => cases failed
  next incomplete =>
    cases failed
    simpa using incomplete

theorem argument_of_bind (bound : applied.bind decl = .ok bounds) {param : String}
    {value : Expr} (found : Bound.value? bounds param = some value) :
    ∃ argument ∈ applied.arguments, argument.value = value := by
  obtain ⟨slots, _, rfl, _, given⟩ := slots_of_bind bound
  obtain ⟨taken, known, rfl⟩ := Option.map_eq_some_iff.1 found
  obtain ⟨slot, listed, same⟩ := List.mem_filterMap.1 (List.mem_of_find?_eq_some known)
  obtain ⟨argument, here, rfl⟩ := Option.map_eq_some_iff.1 same
  exact ⟨argument, given slot listed argument here, rfl⟩

theorem value?_of_bind (bound : applied.bind decl = .ok bounds) {param : AttributeParam}
    (declared : param ∈ decl.params) (required : param.isRequired = true) :
    ∃ value, Bound.value? bounds param.name.name = some value := by
  obtain ⟨slots, params, rfl, complete, _⟩ := slots_of_bind bound
  rw [← params] at declared
  obtain ⟨slot, listed, rfl⟩ := List.mem_map.1 declared
  -- A slot that lacks its argument would have been reported.
  have taken : slot.argument ≠ none := fun free => by
    have reported := complete slot listed
    simp [Slot.lack, required, free] at reported
  obtain ⟨argument, here⟩ := Option.ne_none_iff_exists'.1 taken
  have member : (⟨slot.param, argument⟩ : Bound) ∈ slots.filterMap Slot.bound? :=
    List.mem_filterMap.2 ⟨slot, listed, by rw [Slot.bound?, here, Option.map_some]⟩
  have known : ((slots.filterMap Slot.bound?).find?
      (·.param.name.name == slot.param.name.name)).isSome = true :=
    List.find?_isSome.2 ⟨_, member, by simp⟩
  obtain ⟨found, first⟩ := Option.isSome_iff_exists.1 known
  exact ⟨found.value, by rw [Bound.value?, first, Option.map_some]⟩

theorem value?_of_head (bound : applied.bind decl = .ok bounds) {param : AttributeParam}
    {params : List AttributeParam} {argument : Argument} {rest : List Argument}
    (isParam : decl.params = param :: params) (isArgument : applied.arguments = argument :: rest)
    (suits : argument.suits param = true) :
    Bound.value? bounds param.name.name = some argument.value := by
  unfold bind at bound
  simp only [isParam, isArgument, List.map_cons, Slot.placeAll, Slot.place_cons suits] at bound
  have kept : (Slot.placeAll applied.name.name
      (⟨param, some argument⟩ :: params.map fun param => ⟨param, none⟩) rest).1[0]? =
        some ⟨param, some argument⟩ :=
    Slot.getElem?_placeAll rest _ rfl
  split at bound
  next =>
    cases bound
    cases slots : (Slot.placeAll applied.name.name _ rest).1 with
    | nil => simp [slots] at kept
    | cons slot others =>
      rw [slots, List.getElem?_cons_zero, Option.some.injEq] at kept
      simp [kept, Bound.value?, Slot.bound?, Bound.value]
  next => cases bound

end Attribute

end Schemata
