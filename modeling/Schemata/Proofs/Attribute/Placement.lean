import Mathlib.Data.List.Basic
import Schemata.Proofs.Attribute.Binding

set_option autoImplicit false

namespace Schemata

namespace Argument

def isNamed (argument : Argument) : Bool := argument.name?.isSome

def target? (params : List AttributeParam) (argument : Argument) : Option Nat :=
  argument.name?.bind fun name => params.findIdx? (·.name.name == name.name)

def withoutNames (arguments : List Argument) : List Argument := arguments.filter (!·.isNamed)

def isClaimedBy (params : List AttributeParam) (arguments : List Argument) (index : Nat) : Bool :=
  arguments.any fun argument => argument.target? params == some index

def openPlaces (params : List AttributeParam) (arguments : List Argument) : List Nat :=
  (params.zipIdx.filter fun (param, index) =>
    param.isPositional && !isClaimedBy params arguments index).map Prod.snd

variable {params : List AttributeParam} {arguments : List Argument} {argument : Argument}

theorem target?_of_unnamed (unnamed : argument.isNamed = false) :
    argument.target? params = none := by
  rw [isNamed, Option.isSome_eq_false_iff, Option.isNone_iff_eq_none] at unnamed
  rw [target?, unnamed, Option.bind_none]

theorem isNamed_of_target? {index : Nat} (target : argument.target? params = some index) :
    argument.isNamed = true := by
  by_contra unnamed
  rw [target?_of_unnamed (by simpa using unnamed)] at target
  cases target

theorem lt_length_of_target? {index : Nat} (target : argument.target? params = some index) :
    index < params.length := by
  obtain ⟨name, _, found⟩ := Option.bind_eq_some_iff.1 target
  exact (List.findIdx?_eq_some_iff_getElem.1 found).1

theorem isClaimedBy_eq_true {index : Nat} :
    isClaimedBy params arguments index = true ↔
      ∃ argument ∈ arguments, argument.target? params = some index := by
  simp [isClaimedBy]

theorem mem_withoutNames :
    argument ∈ withoutNames arguments ↔ argument ∈ arguments ∧ argument.isNamed = false := by
  simp [withoutNames]

end Argument

theorem getElem?_filterMap_of_packed {α β : Type} {pick : α → Option β} (items : List α)
    (packed : items.Pairwise fun earlier later => (pick later).isSome → (pick earlier).isSome) :
    ∀ (rank : Nat) (value : β), (items.filterMap pick)[rank]? = some value ↔
      ∃ item, items[rank]? = some item ∧ pick item = some value := by
  induction items with
  | nil => simp
  | cons first rest ih =>
    obtain ⟨early, packed⟩ := List.pairwise_cons.1 packed
    intro rank value
    cases here : pick first with
    | none =>
      -- Then nothing is given by any of the items.
      have none : ∀ item ∈ first :: rest, pick item = none := by
        refine List.forall_mem_cons.2 ⟨here, fun item found => ?_⟩
        by_contra some
        have taken := early item found (Option.isSome_iff_ne_none.2 some)
        rw [here] at taken
        cases taken
      rw [List.filterMap_eq_nil_iff.2 none]
      refine ⟨nofun, fun ⟨item, found, given⟩ => ?_⟩
      rw [none item (List.mem_of_getElem? found)] at given
      cases given
    | some picked =>
      rw [List.filterMap_cons_some here]
      cases rank with
      | zero => simp [here]
      | succ rank => simpa using ih packed rank value

namespace Slot

open Argument

variable {attr : String} {params : List AttributeParam} {placed arguments : List Argument}
  {slots next : List Slot} {argument : Argument}

/--
What holds while arguments are placed. The slots hold those that were placed, the unnamed ones in
their order and with no open slot in front.
-/
structure Arranged (params : List AttributeParam) (placed : List Argument) (slots : List Slot) :
    Prop where
  kept : slots.map Slot.param = params
  held : (slots.filterMap Slot.argument).Perm placed
  inOrder : withoutNames (slots.filterMap Slot.argument) = withoutNames placed
  named : ∀ (index : Nat) (slot : Slot) (argument : Argument), slots[index]? = some slot →
    slot.argument = some argument → argument.isNamed = true → argument.target? params = some index
  positional : ∀ slot ∈ slots, ∀ argument : Argument, slot.argument = some argument →
    argument.isNamed = false → slot.param.isPositional = true
  packed : slots.Pairwise fun earlier later => ∀ argument : Argument,
    later.argument = some argument → argument.isNamed = false → earlier.isOpen = false

theorem arranged_free (params : List AttributeParam) :
    Arranged params [] (params.map fun param => ⟨param, none⟩) := by
  have free : ∀ slot ∈ params.map (fun param => (⟨param, none⟩ : Slot)), slot.argument = none :=
    List.forall_mem_map.2 fun _ _ => rfl
  have empty : (params.map fun param => (⟨param, none⟩ : Slot)).filterMap Slot.argument = [] :=
    List.filterMap_eq_nil_iff.2 free
  refine ⟨by simp [Function.comp_def], by rw [empty], by rw [empty], ?_, ?_, ?_⟩
  · intro index slot argument here taken
    rw [free slot (List.mem_of_getElem? here)] at taken
    cases taken
  · intro slot found argument taken
    rw [free slot found] at taken
    cases taken
  · refine List.pairwise_map.2 (List.pairwise_of_forall fun _ _ argument taken => ?_)
    cases taken

theorem indexFor?_of_named (named : argument.isNamed = true) :
    indexFor? slots argument = argument.target? (slots.map Slot.param) := by
  obtain ⟨name, isName⟩ := Option.isSome_iff_exists.1 named
  simp [indexFor?, target?, isName, List.findIdx?_map, Function.comp_def]

theorem indexFor?_of_unnamed (unnamed : argument.isNamed = false) :
    indexFor? slots argument = slots.findIdx? isOpen := by
  rw [isNamed, Option.isSome_eq_false_iff, Option.isNone_iff_eq_none] at unnamed
  simp [indexFor?, unnamed]

theorem exists_append_of_place (taken : place attr slots argument = .ok next) :
    ∃ before param behind, slots = before ++ ⟨param, none⟩ :: behind ∧
      next = before ++ ⟨param, some argument⟩ :: behind ∧
      indexFor? slots argument = some before.length := by
  obtain ⟨index, param, isIndex, free, rfl⟩ := place_eq_ok taken
  obtain ⟨inside, same⟩ := List.getElem?_eq_some_iff.1 free
  obtain ⟨before, behind, split, length, changed⟩ :
      ∃ before behind, slots = before ++ slots[index] :: behind ∧ before.length = index ∧
        slots.set index ⟨param, some argument⟩ = before ++ ⟨param, some argument⟩ :: behind :=
    List.exists_of_set inside
  rw [same] at split
  exact ⟨before, param, behind, split, changed, by rw [isIndex, length]⟩

theorem place_of_free {index : Nat} {param : AttributeParam}
    (isIndex : indexFor? slots argument = some index) (free : slots[index]? = some ⟨param, none⟩) :
    ∃ next, place attr slots argument = .ok next := by
  refine ⟨slots.set index ⟨param, some argument⟩, ?_⟩
  simp only [place, isIndex, free]

theorem Arranged.getElem?_params {index : Nat} {slot : Slot}
    (arranged : Arranged params placed slots) (here : slots[index]? = some slot) :
    params[index]? = some slot.param := by
  rw [← arranged.kept, List.getElem?_map, here, Option.map_some]

theorem first_open {before behind : List Slot} {param : AttributeParam}
    (unnamed : argument.isNamed = false)
    (isIndex : indexFor? (before ++ ⟨param, none⟩ :: behind) argument = some before.length) :
    param.isPositional = true ∧ ∀ slot ∈ before, slot.isOpen = false := by
  rw [indexFor?_of_unnamed unnamed, List.findIdx?_eq_some_iff_getElem] at isIndex
  obtain ⟨_, here, earlier⟩ := isIndex
  refine ⟨by simpa [isOpen] using here, fun slot found => ?_⟩
  obtain ⟨index, inside, rfl⟩ := List.getElem_of_mem found
  simpa [List.getElem_append_left inside] using earlier index inside

section

variable {before behind : List Slot} {param : AttributeParam}
  (arranged : Arranged params placed (before ++ ⟨param, none⟩ :: behind))
  (isIndex : indexFor? (before ++ ⟨param, none⟩ :: behind) argument = some before.length)

include arranged isIndex

theorem Arranged.isNamed_behind (unnamed : argument.isNamed = false) :
    ∀ slot ∈ behind, ∀ other : Argument, slot.argument = some other → other.isNamed = true := by
  intro slot found other here
  by_contra later
  have packed := List.pairwise_cons.1 (List.pairwise_append.1 arranged.packed).2.1
  have closed := packed.1 slot found other here (by simpa using later)
  rw [isOpen, (first_open unnamed isIndex).1] at closed
  cases closed

theorem Arranged.withoutNames_take :
    withoutNames ((before ++ ⟨param, some argument⟩ :: behind).filterMap Slot.argument) =
      withoutNames (placed ++ [argument]) := by
  have inOrder := arranged.inOrder
  simp only [withoutNames, List.filterMap_append, List.filterMap_cons, List.filter_append]
    at inOrder ⊢
  rw [← inOrder, List.append_assoc]
  congr 1
  cases named : argument.isNamed with
  | true => simp [named]
  | false =>
    have none : (behind.filterMap Slot.argument).filter (!·.isNamed) = [] := by
      refine List.filter_eq_nil_iff.2 fun other listed => ?_
      obtain ⟨slot, found, here⟩ := List.mem_filterMap.1 listed
      simp [arranged.isNamed_behind isIndex named slot found other here]
    simp [named, none]

theorem Arranged.target?_take {index : Nat} {slot : Slot} {other : Argument}
    (here : (before ++ ⟨param, some argument⟩ :: behind)[index]? = some slot)
    (holds : slot.argument = some other) (named : other.isNamed = true) :
    other.target? params = some index := by
  by_cases same : index = before.length
  next =>
    subst same
    rw [List.getElem?_append_right (Nat.le_refl _), Nat.sub_self, List.getElem?_cons_zero] at here
    cases here
    cases holds
    rw [← isIndex, indexFor?_of_named named, arranged.kept]
  next =>
    -- The slot is one that the argument leaves as it is.
    refine arranged.named index slot other ?_ holds named
    rw [List.getElem?_append] at here ⊢
    split at here
    next early => rwa [if_pos early]
    next late =>
      obtain ⟨offset, isOffset⟩ : ∃ offset, index - before.length = offset + 1 :=
        ⟨index - before.length - 1, by omega⟩
      rw [if_neg late]
      rw [isOffset, List.getElem?_cons_succ] at here ⊢
      exact here

end

theorem Arranged.place (arranged : Arranged params placed slots)
    (taken : Slot.place attr slots argument = .ok next) :
    Arranged params (placed ++ [argument]) next := by
  obtain ⟨before, param, behind, rfl, rfl, isIndex⟩ := exists_append_of_place taken
  constructor
  case kept => simpa using arranged.kept
  case held =>
    have held := arranged.held
    simp only [List.filterMap_append, List.filterMap_cons] at held ⊢
    exact (List.perm_middle.trans (held.cons argument)).trans
      (List.perm_append_singleton argument placed).symm
  case inOrder => exact arranged.withoutNames_take isIndex
  case named => exact fun _ _ _ => arranged.target?_take isIndex
  case positional =>
    intro slot found other holds unnamed
    rcases List.mem_append.1 found with found | found
    · exact arranged.positional slot (List.mem_append_left _ found) other holds unnamed
    · rcases List.mem_cons.1 found with rfl | found
      · cases holds
        exact (first_open unnamed isIndex).1
      · exact arranged.positional slot
          (List.mem_append_right _ (List.mem_cons_of_mem _ found)) other holds unnamed
  case packed =>
    have packed := List.pairwise_append.1 arranged.packed
    rw [List.pairwise_cons] at packed
    rw [List.pairwise_append, List.pairwise_cons]
    refine ⟨packed.1, ⟨fun slot found other holds unnamed => ?_, packed.2.1.2⟩, ?_⟩
    · rw [isOpen, Option.isNone_some, Bool.and_false]
    · intro earlier found
      refine List.forall_mem_cons.2 ⟨fun other holds unnamed => ?_, fun later behind => ?_⟩
      · cases holds
        exact (first_open unnamed isIndex).2 earlier found
      · exact packed.2.2 earlier found later (List.mem_cons_of_mem _ behind)

theorem exists_arranged_placeAll (attr : String) (rest : List Argument) : ∀ placed slots,
    Arranged params placed slots → ∃ accepted refused,
      Arranged params (placed ++ accepted) (placeAll attr slots rest).1 ∧
        accepted.Sublist rest ∧ (accepted ++ refused).Perm rest ∧
        List.Forall₂ (fun argument error => ∃ slots, Slot.place attr slots argument = .error error)
          refused (placeAll attr slots rest).2 := by
  induction rest with
  | nil =>
    intro placed slots arranged
    exact ⟨[], [], by rwa [List.append_nil], .slnil, .refl _, .nil⟩
  | cons argument rest ih =>
    intro placed slots arranged
    rw [Slot.placeAll]
    cases stepped : Slot.place attr slots argument with
    | ok next =>
      obtain ⟨accepted, refused, behind, sublist, perm, errors⟩ := ih _ _ (arranged.place stepped)
      refine ⟨argument :: accepted, refused, ?_, sublist.cons_cons argument, perm.cons argument,
        errors⟩
      simpa using behind
    | error error =>
      obtain ⟨accepted, refused, behind, sublist, perm, errors⟩ := ih _ _ arranged
      exact ⟨accepted, argument :: refused, behind, sublist.cons argument,
        List.perm_middle.trans (perm.cons argument), .cons ⟨slots, stepped⟩ errors⟩

theorem Arranged.placeAll {rest : List Argument} (arranged : Arranged params placed slots)
    (done : (Slot.placeAll attr slots rest).2 = []) :
    Arranged params (placed ++ rest) (Slot.placeAll attr slots rest).1 := by
  obtain ⟨accepted, refused, behind, sublist, perm, errors⟩ :=
    exists_arranged_placeAll attr rest placed slots arranged
  rw [done] at errors
  cases errors
  rw [List.append_nil] at perm
  rwa [sublist.eq_of_length perm.length_eq] at behind

theorem Arranged.exists_of_mem (arranged : Arranged params placed slots)
    (member : argument ∈ placed) :
    ∃ (index : Nat) (slot : Slot), slots[index]? = some slot ∧ slot.argument = some argument := by
  obtain ⟨slot, found, holds⟩ := List.mem_filterMap.1 (arranged.held.mem_iff.2 member)
  obtain ⟨index, here⟩ := List.mem_iff_getElem?.1 found
  exact ⟨index, slot, here, holds⟩

theorem Arranged.mem {index : Nat} {slot : Slot} (arranged : Arranged params placed slots)
    (here : slots[index]? = some slot) (holds : slot.argument = some argument) :
    argument ∈ placed :=
  arranged.held.mem_iff.1 (List.mem_filterMap.2 ⟨slot, List.mem_of_getElem? here, holds⟩)

theorem Arranged.slot_of_target? {index : Nat} (arranged : Arranged params placed slots)
    (member : argument ∈ placed) (target : argument.target? params = some index) :
    ∃ slot, slots[index]? = some slot ∧ slot.argument = some argument := by
  obtain ⟨there, slot, here, holds⟩ := arranged.exists_of_mem member
  have same := arranged.named there slot argument here holds (isNamed_of_target? target)
  cases Option.some.inj (target.symm.trans same)
  exact ⟨slot, here, holds⟩

def isOpenPlace (params : List AttributeParam) (placed : List Argument) (place : Slot × Nat) :
    Bool :=
  place.1.param.isPositional && !isClaimedBy params placed place.2

def openSlots (params : List AttributeParam) (placed : List Argument) (slots : List Slot) :
    List (Slot × Nat) :=
  slots.zipIdx.filter (isOpenPlace params placed)

theorem Arranged.map_openSlots (arranged : Arranged params placed slots) :
    (openSlots params placed slots).map Prod.snd = openPlaces params placed := by
  have params : params.zipIdx = slots.zipIdx.map (Prod.map Slot.param id) := by
    rw [← arranged.kept, List.zipIdx_map]
  rw [openPlaces, params, List.filter_map, List.map_map]
  rfl

theorem Arranged.isOpenPlace_eq {index : Nat} {slot : Slot}
    (arranged : Arranged params placed slots) (here : slots[index]? = some slot)
    (holds : slot.argument = some argument) :
    isOpenPlace params placed (slot, index) = !argument.isNamed := by
  cases named : argument.isNamed with
  | true =>
    have target := arranged.named index slot argument here holds named
    simp [isOpenPlace, isClaimedBy_eq_true.2 ⟨argument, arranged.mem here holds, target⟩]
  | false =>
    have positional := arranged.positional slot (List.mem_of_getElem? here) argument holds named
    have unclaimed : isClaimedBy params placed index = false := by
      by_contra claimed
      obtain ⟨other, member, target⟩ := isClaimedBy_eq_true.1 (by simpa using claimed)
      -- The argument that claims the place is there.
      obtain ⟨found, there, holdsOther⟩ := arranged.slot_of_target? member target
      cases Option.some.inj (here.symm.trans there)
      cases Option.some.inj (holds.symm.trans holdsOther)
      rw [isNamed_of_target? target] at named
      cases named
    simp [isOpenPlace, positional, unclaimed]

theorem Arranged.filterMap_openSlots (arranged : Arranged params placed slots) :
    (openSlots params placed slots).filterMap (fun place => place.1.argument) =
      withoutNames placed := by
  have all : slots.filterMap Slot.argument =
      slots.zipIdx.filterMap fun place => place.1.argument := by
    conv_lhs => rw [← List.zipIdx_map_fst 0 slots, List.filterMap_map]
    rfl
  rw [← arranged.inOrder, all, withoutNames, List.filter_filterMap, openSlots,
    List.filterMap_filter]
  refine List.filterMap_congr fun place found => ?_
  obtain ⟨slot, index⟩ := place
  cases holds : slot.argument with
  | none => simp
  | some argument =>
    rw [arranged.isOpenPlace_eq (List.mem_zipIdx_iff_getElem?.1 found) holds, Option.filter_some]

theorem mem_openSlots {place : Slot × Nat} (found : place ∈ openSlots params placed slots) :
    slots[place.2]? = some place.1 ∧ isOpenPlace params placed place = true :=
  (List.mem_filter.1 found).imp List.mem_zipIdx_iff_getElem?.1 id

theorem Arranged.packed_openSlots (arranged : Arranged params placed slots) :
    (openSlots params placed slots).Pairwise fun earlier later =>
      later.1.argument.isSome → earlier.1.argument.isSome := by
  have packed := arranged.packed
  rw [← List.zipIdx_map_fst 0 slots, List.pairwise_map] at packed
  refine (packed.sublist List.filter_sublist).imp_of_mem fun {earlier later} early late closed => ?_
  intro taken
  obtain ⟨argument, holds⟩ := Option.isSome_iff_exists.1 taken
  obtain ⟨here, isOpen⟩ := mem_openSlots late
  rw [arranged.isOpenPlace_eq here holds] at isOpen
  -- The earlier slot is positional, and it is not open.
  have positional := (mem_openSlots early).2
  rw [isOpenPlace, Bool.and_eq_true] at positional
  have shut := closed argument holds (by simpa using isOpen)
  rw [Slot.isOpen, positional.1, Bool.true_and, Option.isNone_eq_false_iff] at shut
  exact shut

/-- The unnamed arguments are in the open places, from the first one on. -/
theorem Arranged.getElem?_withoutNames (arranged : Arranged params placed slots) {rank : Nat} :
    (withoutNames placed)[rank]? = some argument ↔ ∃ index slot,
      (openPlaces params placed)[rank]? = some index ∧ slots[index]? = some slot ∧
        slot.argument = some argument := by
  rw [← arranged.filterMap_openSlots, getElem?_filterMap_of_packed _ arranged.packed_openSlots,
    ← arranged.map_openSlots]
  constructor
  · rintro ⟨⟨slot, index⟩, found, holds⟩
    refine ⟨index, slot, by rw [List.getElem?_map, found]; rfl, ?_, holds⟩
    exact (mem_openSlots (List.mem_of_getElem? found)).1
  · rintro ⟨index, slot, found, here, holds⟩
    rw [List.getElem?_map, Option.map_eq_some_iff] at found
    obtain ⟨⟨other, _⟩, found, rfl⟩ := found
    refine ⟨_, found, ?_⟩
    have there := (mem_openSlots (List.mem_of_getElem? found)).1
    cases Option.some.inj (here.symm.trans there)
    exact holds

theorem Arranged.exists_rank {index : Nat} {slot : Slot} (arranged : Arranged params placed slots)
    (here : slots[index]? = some slot) (holds : slot.argument = some argument)
    (isUnnamed : argument.isNamed = false) :
    ∃ rank : Nat, (withoutNames placed)[rank]? = some argument ∧
      (openPlaces params placed)[rank]? = some index := by
  have found : (slot, index) ∈ openSlots params placed slots := by
    refine List.mem_filter.2 ⟨List.mem_zipIdx_iff_getElem?.2 here, ?_⟩
    rw [arranged.isOpenPlace_eq here holds, isUnnamed, Bool.not_false]
  obtain ⟨rank, atRank⟩ := List.mem_iff_getElem?.1 found
  have place : (openPlaces params placed)[rank]? = some index := by
    rw [← arranged.map_openSlots, List.getElem?_map, atRank, Option.map_some]
  exact ⟨rank, arranged.getElem?_withoutNames.2 ⟨index, slot, place, here, holds⟩, place⟩

end Slot

def Attribute.placement (decl : AttributeDecl) (applied : Attribute) :
    List Slot × List BindError :=
  Slot.placeAll applied.name.name (decl.params.map fun param => ⟨param, none⟩) applied.arguments

namespace Attribute

variable {decl : AttributeDecl} {applied : Attribute} {bounds : List Bound}

theorem bind_eq_ok_iff :
    applied.bind decl = .ok bounds ↔ (placement decl applied).2 = [] ∧
      (placement decl applied).1.filterMap (Slot.lack applied) = [] ∧
      (placement decl applied).1.filterMap Slot.bound? = bounds := by
  rw [← and_assoc, ← List.append_eq_nil_iff, ← List.isEmpty_iff]
  unfold bind placement
  simp only
  split
  next complete => simp [complete]
  next incomplete => simp [incomplete]

theorem arranged_placement (done : (placement decl applied).2 = []) :
    Slot.Arranged decl.params applied.arguments (placement decl applied).1 :=
  (Slot.arranged_free decl.params).placeAll done

end Attribute

end Schemata
