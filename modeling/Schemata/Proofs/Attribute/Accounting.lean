import Mathlib.Data.List.Forall2
import Schemata.Proofs.Attribute.Placement

set_option autoImplicit false

namespace Schemata

namespace BindError

def isRefusal (error : BindError) : Bool :=
  match error.issue with
  | .unexpectedUnnamed _ | .unknownParameter _ _ | .alreadyProvided _ _ => true
  | _ => false

def isLack (error : BindError) : Bool :=
  match error.issue with
  | .missingRequired _ _ => true
  | _ => false

structure Refuses (argument : Argument) (error : BindError) : Prop where
  isRefusal : error.isRefusal = true
  place : error.span = argument.span ∨ ∃ name, argument.name? = some name ∧ error.span = name.span

end BindError

namespace Attribute

def bindErrors (decl : AttributeDecl) (applied : Attribute) : List BindError :=
  match applied.bind decl with
  | .ok _ => []
  | .error errors => errors

def received (decl : AttributeDecl) (applied : Attribute) : List Slot :=
  (placement decl applied).1.filter (·.argument.isSome)

def lacking (decl : AttributeDecl) (applied : Attribute) : List Slot :=
  (placement decl applied).1.filter fun slot => slot.argument.isNone && slot.param.isRequired

/--
All arguments are bound, in the order of the parameters. The slots tell parameters of one name
apart.
-/
structure BindsAll (decl : AttributeDecl) (applied : Attribute) (bounds : List Bound) : Prop where
  inOrder : (bounds.map Bound.param).Sublist decl.params
  once : applied.arguments.Perm (bounds.map Bound.argument)
  slots : ∃ slots : List Slot, slots.map Slot.param = decl.params ∧
    slots.filterMap Slot.bound? = bounds ∧
    (∀ argument ∈ applied.arguments, argument.isNamed = true → ∃ index param,
      argument.target? decl.params = some index ∧ slots[index]? = some ⟨param, some argument⟩) ∧
    ∀ (rank : Nat) (argument : Argument),
      (Argument.withoutNames applied.arguments)[rank]? = some argument → ∃ index param,
        (Argument.openPlaces decl.params applied.arguments)[rank]? = some index ∧
          slots[index]? = some ⟨param, some argument⟩

structure Accounts (decl : AttributeDecl) (applied : Attribute) : Prop where
  counted : applied.arguments.length = (received decl applied).length +
    ((bindErrors decl applied).filter BindError.isRefusal).length
  refused : ∃ refused, ((received decl applied).filterMap Slot.argument ++ refused).Perm
      applied.arguments ∧
    List.Forall₂ BindError.Refuses refused
      ((bindErrors decl applied).filter BindError.isRefusal)
  lacks : (bindErrors decl applied).filter BindError.isLack =
    (lacking decl applied).map fun slot =>
      ⟨.missingRequired applied.name.name slot.param.name.name, applied.span⟩
  others : ∀ error ∈ bindErrors decl applied, error.isRefusal = true ∨ error.isLack = true
  accepted : (∃ bounds, applied.bind decl = .ok bounds) ↔ bindErrors decl applied = []
  binds : ∀ bounds, applied.bind decl = .ok bounds → BindsAll decl applied bounds

end Attribute

theorem Slot.refuses_of_place {attr : String} {slots : List Slot} {argument : Argument}
    {error : BindError} (failed : place attr slots argument = .error error) :
    error.Refuses argument := by
  have missing : (missing attr slots argument).Refuses argument := by
    unfold Slot.missing
    split
    next name named => exact ⟨rfl, .inr ⟨name, named, rfl⟩⟩
    next => split <;> exact ⟨rfl, .inl rfl⟩
  unfold place at failed
  split at failed
  next => cases failed; exact missing
  next =>
    split at failed
    next => cases failed
    next => cases failed; exact ⟨rfl, .inl rfl⟩
    next => cases failed; exact missing

theorem BindError.isRefusal_of_forall₂ {arguments : List Argument} {errors : List BindError}
    (refused : List.Forall₂ Refuses arguments errors) :
    ∀ error ∈ errors, error.isRefusal = true := by
  induction refused with
  | nil => exact nofun
  | cons first _ ih => exact List.forall_mem_cons.2 ⟨first.isRefusal, ih⟩

theorem BindError.isLack_eq_false {error : BindError} (refuses : error.isRefusal = true) :
    error.isLack = false := by
  unfold isRefusal at refuses
  unfold isLack
  split at refuses <;> simp_all

namespace Attribute

variable (decl : AttributeDecl) (applied : Attribute)

theorem bindErrors_eq :
    bindErrors decl applied = (placement decl applied).2 ++ (lacking decl applied).map fun slot =>
      ⟨.missingRequired applied.name.name slot.param.name.name, applied.span⟩ := by
  have lacks : (placement decl applied).1.filterMap (Slot.lack applied) =
      (lacking decl applied).map fun slot =>
        ⟨.missingRequired applied.name.name slot.param.name.name, applied.span⟩ := by
    rw [lacking, ← List.filterMap_eq_map, List.filterMap_filter]
    rfl
  rw [← lacks, bindErrors, bind, placement]
  simp only
  split
  next bound =>
    split at bound
    next complete => rw [List.isEmpty_iff.1 complete]
    next => cases bound
  next failed =>
    split at failed
    next => cases failed
    next =>
      cases failed
      rfl

theorem exists_refused : ∃ refused,
    ((received decl applied).filterMap Slot.argument ++ refused).Perm applied.arguments ∧
      List.Forall₂ BindError.Refuses refused (placement decl applied).2 := by
  obtain ⟨accepted, refused, arranged, _, perm, errors⟩ :=
    Slot.exists_arranged_placeAll applied.name.name applied.arguments [] _
      (Slot.arranged_free decl.params)
  refine ⟨refused, ?_, errors.imp fun _ _ ⟨_, failed⟩ => Slot.refuses_of_place failed⟩
  have held : (received decl applied).filterMap Slot.argument =
      (placement decl applied).1.filterMap Slot.argument := by
    rw [received, List.filterMap_filter]
    refine List.filterMap_congr fun slot _ => ?_
    cases slot.argument <;> rfl
  rw [held]
  exact (arranged.held.append_right refused).trans perm

theorem isRefusal_of_mem_placement :
    ∀ error ∈ (placement decl applied).2, error.isRefusal = true := by
  obtain ⟨refused, _, errors⟩ := exists_refused decl applied
  exact BindError.isRefusal_of_forall₂ errors

theorem filter_isRefusal_bindErrors :
    (bindErrors decl applied).filter BindError.isRefusal = (placement decl applied).2 := by
  rw [bindErrors_eq, List.filter_append,
    List.filter_eq_self.2 (isRefusal_of_mem_placement decl applied), List.filter_map]
  exact List.append_right_eq_self.2 (by simp [Function.comp_def, BindError.isRefusal])

theorem filter_isLack_bindErrors :
    (bindErrors decl applied).filter BindError.isLack = (lacking decl applied).map fun slot =>
      ⟨.missingRequired applied.name.name slot.param.name.name, applied.span⟩ := by
  have none : (placement decl applied).2.filter BindError.isLack = [] := by
    refine List.filter_eq_nil_iff.2 fun error found => ?_
    rw [BindError.isLack_eq_false (isRefusal_of_mem_placement decl applied error found)]
    exact Bool.false_ne_true
  rw [bindErrors_eq, List.filter_append, none, List.nil_append, List.filter_eq_self]
  exact List.forall_mem_map.2 fun _ _ => rfl

variable {decl applied}

theorem bindsAll_of_bind {bounds : List Bound} (bound : applied.bind decl = .ok bounds) :
    BindsAll decl applied bounds := by
  obtain ⟨done, _, rfl⟩ := bind_eq_ok_iff.1 bound
  have arranged := arranged_placement done
  have holding {slot : Slot} {argument : Argument} (holds : slot.argument = some argument) :
      slot = ⟨slot.param, some argument⟩ := by
    rw [← holds]
  constructor
  case inOrder =>
    have params : ((placement decl applied).1.filterMap Slot.bound?).map Bound.param =
        ((placement decl applied).1.filter (·.argument.isSome)).map Slot.param := by
      rw [List.map_filterMap, ← List.filterMap_eq_map, List.filterMap_filter]
      refine List.filterMap_congr fun slot _ => ?_
      cases holds : slot.argument <;> simp [Slot.bound?, holds]
    rw [params, ← arranged.kept]
    exact List.filter_sublist.map Slot.param
  case once =>
    have arguments : ((placement decl applied).1.filterMap Slot.bound?).map Bound.argument =
        (placement decl applied).1.filterMap Slot.argument := by
      simp [List.map_filterMap, Slot.bound?, Function.comp_def]
    rw [arguments]
    exact arranged.held.symm
  case slots =>
    refine ⟨(placement decl applied).1, arranged.kept, rfl, fun argument member named => ?_,
      fun rank argument isUnnamed => ?_⟩
    · obtain ⟨index, slot, here, holds⟩ := arranged.exists_of_mem member
      exact ⟨index, slot.param, arranged.named index slot argument here holds named,
        holding holds ▸ here⟩
    · obtain ⟨index, slot, place, here, holds⟩ := arranged.getElem?_withoutNames.1 isUnnamed
      exact ⟨index, slot.param, place, holding holds ▸ here⟩

theorem accounts (decl : AttributeDecl) (applied : Attribute) : Accounts decl applied := by
  obtain ⟨refused, perm, errors⟩ := exists_refused decl applied
  rw [← filter_isRefusal_bindErrors] at errors
  constructor
  case counted =>
    have taken : ((received decl applied).filterMap Slot.argument).length =
        (received decl applied).length :=
      List.filterMap_length_eq_length.2 fun slot found => (List.mem_filter.1 found).2
    rw [← perm.length_eq, List.length_append, taken, errors.length_eq]
  case refused => exact ⟨refused, perm, errors⟩
  case lacks => exact filter_isLack_bindErrors decl applied
  case others =>
    intro error found
    rw [bindErrors_eq] at found
    rcases List.mem_append.1 found with found | found
    · exact .inl (isRefusal_of_mem_placement decl applied error found)
    · obtain ⟨slot, _, rfl⟩ := List.mem_map.1 found
      exact .inr rfl
  case accepted =>
    unfold bindErrors
    cases bound : applied.bind decl with
    | ok bounds => simp
    | error errors => simpa using errors_ne_nil_of_bind bound
  case binds => exact fun bounds => bindsAll_of_bind

end Attribute

end Schemata
