import Mathlib.Data.List.Nodup
import Schemata.Proofs.Attribute.Placement
import Schemata.Proofs.Places.Syntax

/-!
# The order of named arguments

Two applications that differ in the order of their named arguments bind the same values, if both are
accepted. Acceptance depends on the order in one way: an unnamed argument may take the slot of a
positional parameter that a later argument names.
-/

set_option autoImplicit false

namespace Schemata

namespace Argument

def withNames (arguments : List Argument) : List Argument := arguments.filter isNamed

/--
The same arguments, but for their places in the text: the unnamed ones in the same order, the named
ones in any.
-/
structure Rearranged (arguments others : List Argument) : Prop where
  unnamed : (withoutNames arguments).map erase = (withoutNames others).map erase
  named : ((withNames arguments).map erase).Perm ((withNames others).map erase)

def claimsPositional (params : List AttributeParam) (argument : Argument) : Bool :=
  ((argument.target? params).bind (params[·]?)).any AttributeParam.isPositional

/-- No unnamed argument stands in front of one that names a positional parameter. -/
def ClaimsFirst (params : List AttributeParam) (arguments : List Argument) : Prop :=
  arguments.Pairwise fun earlier later =>
    later.claimsPositional params = true → earlier.isNamed = true

/--
What accepted arguments have in common, whatever their order is. Each name is that of a parameter,
no two of them claim the same one, and the open places are enough for the arguments without a name.
-/
structure Fits (params : List AttributeParam) (arguments : List Argument) : Prop where
  known : ∀ argument ∈ arguments, argument.isNamed = true →
    ∃ index, argument.target? params = some index
  once : (arguments.filterMap (target? params)).Nodup
  room : (withoutNames arguments).length ≤ (openPlaces params arguments).length

variable {params : List AttributeParam} {arguments others : List Argument} {argument : Argument}
  {index : Nat}

@[simp] theorem target?_erase (params : List AttributeParam) (argument : Argument) :
    argument.erase.target? params = argument.target? params := by
  simp only [target?, name?_erase]
  cases argument.name? <;> rfl

@[simp] theorem claimsPositional_erase (params : List AttributeParam) (argument : Argument) :
    argument.erase.claimsPositional params = argument.claimsPositional params := by
  rw [claimsPositional, target?_erase, claimsPositional]

theorem claimsPositional_of_target? {param : AttributeParam}
    (target : argument.target? params = some index) (here : params[index]? = some param) :
    argument.claimsPositional params = param.isPositional := by
  rw [claimsPositional, target, Option.bind_some, here, Option.any_some]

theorem claimsPositional_of_unnamed (isUnnamed : argument.isNamed = false) :
    argument.claimsPositional params = false := by
  rw [claimsPositional, target?_of_unnamed isUnnamed, Option.bind_none, Option.any_none]

theorem claimsFirst_of_unclaimed
    (unclaimed : ∀ argument ∈ arguments, argument.claimsPositional params = false) :
    ClaimsFirst params arguments := by
  refine List.pairwise_of_forall_mem_list fun _ _ later found claims => ?_
  cases (unclaimed later found).symm.trans claims

theorem mem_withNames :
    argument ∈ withNames arguments ↔ argument ∈ arguments ∧ argument.isNamed = true := by
  simp [withNames]

theorem claimsFirst_of_namedFirst
    (namedFirst : arguments = withNames arguments ++ withoutNames arguments) :
    ClaimsFirst params arguments := by
  have named : ∀ argument ∈ withNames arguments, argument.isNamed = true :=
    fun argument found => (mem_withNames.1 found).2
  rw [namedFirst, ClaimsFirst, List.pairwise_append]
  refine ⟨List.pairwise_of_forall_mem_list fun earlier early _ _ _ => named earlier early, ?_,
    fun earlier early _ _ _ => named earlier early⟩
  exact claimsFirst_of_unclaimed fun argument found =>
    claimsPositional_of_unnamed (mem_withoutNames.1 found).2

namespace Rearranged

theorem symm (same : Rearranged arguments others) : Rearranged others arguments :=
  ⟨same.unnamed.symm, same.named.symm⟩

theorem exists_named (same : Rearranged arguments others) (member : argument ∈ arguments)
    (isNamed : argument.isNamed = true) :
    ∃ other ∈ others, other.isNamed = true ∧ other.erase = argument.erase := by
  have found := same.named.mem_iff.1 (List.mem_map_of_mem (mem_withNames.2 ⟨member, isNamed⟩))
  obtain ⟨other, listed, equal⟩ := List.mem_map.1 found
  exact ⟨other, (mem_withNames.1 listed).1, (mem_withNames.1 listed).2, equal⟩

theorem getElem?_withoutNames (same : Rearranged arguments others) {rank : Nat}
    (here : (withoutNames arguments)[rank]? = some argument) :
    ∃ other, (withoutNames others)[rank]? = some other ∧ other.erase = argument.erase := by
  have there := congrArg (·[rank]?) same.unnamed
  simp only [List.getElem?_map, here, Option.map_some] at there
  exact Option.map_eq_some_iff.1 there.symm

theorem exists_target (same : Rearranged arguments others) (member : argument ∈ arguments)
    (target : argument.target? params = some index) :
    ∃ other ∈ others, other.target? params = some index ∧ other.erase = argument.erase := by
  obtain ⟨other, found, _, equal⟩ := same.exists_named member (isNamed_of_target? target)
  refine ⟨other, found, ?_, equal⟩
  rw [← target?_erase, equal, target?_erase, target]

theorem claimsPositional_eq_false (same : Rearranged arguments others)
    (unclaimed : ∀ argument ∈ arguments, argument.claimsPositional params = false) :
    ∀ other ∈ others, other.claimsPositional params = false := by
  intro other member
  cases isNamed : other.isNamed with
  | false => exact claimsPositional_of_unnamed isNamed
  | true =>
    obtain ⟨argument, found, _, equal⟩ := same.symm.exists_named member isNamed
    rw [← claimsPositional_erase, ← equal, claimsPositional_erase, unclaimed argument found]

theorem isClaimedBy_eq (same : Rearranged arguments others) (params : List AttributeParam)
    (index : Nat) : isClaimedBy params arguments index = isClaimedBy params others index := by
  rw [Bool.eq_iff_iff, isClaimedBy_eq_true, isClaimedBy_eq_true]
  constructor
  · rintro ⟨argument, member, target⟩
    obtain ⟨other, found, targetToo, _⟩ := same.exists_target member target
    exact ⟨other, found, targetToo⟩
  · rintro ⟨argument, member, target⟩
    obtain ⟨other, found, targetToo, _⟩ := same.symm.exists_target member target
    exact ⟨other, found, targetToo⟩

theorem perm_targets (same : Rearranged arguments others) :
    (arguments.filterMap (target? params)).Perm (others.filterMap (target? params)) := by
  have named (arguments : List Argument) :
      ((withNames arguments).map erase).filterMap (target? params) =
        arguments.filterMap (target? params) := by
    rw [List.filterMap_map, withNames, List.filterMap_filter]
    refine List.filterMap_congr fun argument _ => ?_
    cases isNamed : argument.isNamed with
    | true => simp
    | false => simp [target?_of_unnamed isNamed]
  rw [← named arguments, ← named others]
  exact same.named.filterMap _

theorem openPlaces_eq (same : Rearranged arguments others) (params : List AttributeParam) :
    openPlaces params arguments = openPlaces params others := by
  simp only [openPlaces, same.isClaimedBy_eq]

theorem fits (same : Rearranged arguments others) (fits : Fits params arguments) :
    Fits params others := by
  refine ⟨fun other member isNamed => ?_, same.perm_targets.nodup_iff.1 fits.once, ?_⟩
  · obtain ⟨argument, found, isNamedToo, equal⟩ := same.symm.exists_named member isNamed
    obtain ⟨index, target⟩ := fits.known argument found isNamedToo
    exact ⟨index, by rw [← target?_erase, ← equal, target?_erase, target]⟩
  · have unnamed := congrArg List.length same.unnamed
    rw [List.length_map, List.length_map] at unnamed
    rw [← unnamed, ← same.openPlaces_eq]
    exact fits.room

end Rearranged

end Argument

def Bound.content (bound : Bound) : AttributeParam × Argument :=
  (bound.param, bound.argument.erase)

namespace Slot

open Argument

variable {attr : String} {params : List AttributeParam}
  {arguments others placed rest : List Argument} {slots otherSlots : List Slot}
  {argument : Argument} {index : Nat} {slot : Slot}

def content (slot : Slot) : AttributeParam × Option Argument :=
  (slot.param, slot.argument.map Argument.erase)

theorem Arranged.exists_slot (arranged : Arranged params arguments slots)
    (arrangedToo : Arranged params others otherSlots) (same : Rearranged arguments others)
    (here : slots[index]? = some slot) (holds : slot.argument = some argument) :
    ∃ (otherSlot : Slot) (other : Argument), otherSlots[index]? = some otherSlot ∧
      otherSlot.argument = some other ∧ other.erase = argument.erase := by
  cases isNamed : argument.isNamed with
  | true =>
    have target := arranged.named index slot argument here holds isNamed
    obtain ⟨other, member, targetToo, equal⟩ := same.exists_target (arranged.mem here holds) target
    obtain ⟨otherSlot, there, holdsToo⟩ := arrangedToo.slot_of_target? member targetToo
    exact ⟨otherSlot, other, there, holdsToo, equal⟩
  | false =>
    -- Unnamed arguments are at the same ranks, and the open places are the same.
    obtain ⟨rank, isUnnamed, place⟩ := arranged.exists_rank here holds isNamed
    obtain ⟨other, isUnnamedToo, equal⟩ := same.getElem?_withoutNames isUnnamed
    obtain ⟨there, otherSlot, placeToo, hereToo, holdsToo⟩ :=
      arrangedToo.getElem?_withoutNames.1 isUnnamedToo
    rw [← same.openPlaces_eq] at placeToo
    cases Option.some.inj (place.symm.trans placeToo)
    exact ⟨otherSlot, other, hereToo, holdsToo, equal⟩

theorem Arranged.map_content (arranged : Arranged params arguments slots)
    (arrangedToo : Arranged params others otherSlots) (same : Rearranged arguments others) :
    slots.map content = otherSlots.map content := by
  refine List.ext_getElem? fun index => ?_
  have kept := congrArg (·[index]?) (arranged.kept.trans arrangedToo.kept.symm)
  simp only [List.getElem?_map] at kept ⊢
  cases here : slots[index]? with
  | none =>
    rw [here, Option.map_none, eq_comm, Option.map_eq_none_iff] at kept
    rw [kept, Option.map_none]
  | some slot =>
    rw [here, Option.map_some, eq_comm] at kept
    obtain ⟨other, there, sameParam⟩ := Option.map_eq_some_iff.1 kept
    rw [there, Option.map_some, Option.map_some, content, content, sameParam]
    congr 2
    cases holds : slot.argument with
    | some argument =>
      obtain ⟨_, found, thereToo, holdsToo, equal⟩ :=
        arranged.exists_slot arrangedToo same here holds
      cases Option.some.inj (there.symm.trans thereToo)
      rw [holdsToo, Option.map_some, Option.map_some, equal]
    | none =>
      cases holdsToo : other.argument with
      | none => rfl
      | some argument =>
        obtain ⟨_, found, hereToo, taken, _⟩ :=
          arrangedToo.exists_slot arranged same.symm there holdsToo
        cases Option.some.inj (here.symm.trans hereToo)
        cases holds.symm.trans taken

theorem Arranged.nodup_targets (arranged : Arranged params arguments slots) :
    (arguments.filterMap (target? params)).Nodup := by
  rw [← (arranged.held.filterMap (target? params)).nodup_iff, List.filterMap_filterMap,
    List.Nodup, List.pairwise_filterMap, List.pairwise_iff_getElem]
  have place {index place : Nat} (inside : index < slots.length)
      (target : slots[index].argument.bind (target? params) = some place) : place = index := by
    obtain ⟨argument, holds, target⟩ := Option.bind_eq_some_iff.1 target
    have named := arranged.named index _ argument (List.getElem?_eq_getElem inside) holds
      (isNamed_of_target? target)
    exact Option.some.inj (target.symm.trans named)
  intro earlier later insideEarlier insideLater before left isLeft right isRight
  rw [place insideEarlier isLeft, place insideLater isRight]
  exact Nat.ne_of_lt before

theorem Arranged.fits (arranged : Arranged params arguments slots) : Fits params arguments := by
  refine ⟨fun argument member isNamed => ?_, arranged.nodup_targets, ?_⟩
  · obtain ⟨index, slot, here, holds⟩ := arranged.exists_of_mem member
    exact ⟨index, arranged.named index slot argument here holds isNamed⟩
  · rw [← arranged.filterMap_openSlots, ← arranged.map_openSlots, List.length_map]
    exact List.length_filterMap_le _ _

theorem Arranged.exists_place_of_named (soFar : Arranged params placed slots)
    (fits : Fits params (placed ++ argument :: rest))
    (claimsFirst : ClaimsFirst params (placed ++ argument :: rest))
    (isNamed : argument.isNamed = true) : ∃ next, Slot.place attr slots argument = .ok next := by
  have member : argument ∈ placed ++ argument :: rest :=
    List.mem_append_right _ List.mem_cons_self
  obtain ⟨index, target⟩ := fits.known argument member isNamed
  obtain ⟨⟨param, held⟩, here⟩ : ∃ slot, slots[index]? = some slot := by
    refine ⟨_, List.getElem?_eq_getElem ?_⟩
    rw [← List.length_map Slot.param, soFar.kept]
    exact lt_length_of_target? target
  cases held with
  | none => exact place_of_free (by rw [indexFor?_of_named isNamed, soFar.kept, target]) here
  | some holder =>
    exfalso
    have early := soFar.mem here rfl
    cases holderNamed : holder.isNamed with
    | true =>
      have twice := soFar.named index _ holder here rfl holderNamed
      have once := fits.once
      rw [List.filterMap_append, List.filterMap_cons_some target, List.nodup_append] at once
      exact once.2.2 index (List.mem_filterMap.2 ⟨holder, early, twice⟩) index
        List.mem_cons_self rfl
    | false =>
      rw [ClaimsFirst, List.pairwise_append] at claimsFirst
      have positional := soFar.positional _ (List.mem_of_getElem? here) holder rfl holderNamed
      rw [← claimsPositional_of_target? target (soFar.getElem?_params here)] at positional
      have named := claimsFirst.2.2 holder early argument List.mem_cons_self positional
      cases holderNamed.symm.trans named

theorem openPlaces_of_claimsFirst
    (claimsFirst : ClaimsFirst params (placed ++ argument :: rest))
    (isUnnamed : argument.isNamed = false) :
    openPlaces params placed = openPlaces params (placed ++ argument :: rest) := by
  unfold openPlaces
  congr 1
  refine List.filter_congr fun ⟨param, index⟩ found => ?_
  have here := List.mem_zipIdx_iff_getElem?.1 found
  change (param.isPositional && !isClaimedBy params placed index) =
    (param.isPositional && !isClaimedBy params (placed ++ argument :: rest) index)
  cases positional : param.isPositional with
  | false => rw [Bool.false_and, Bool.false_and]
  | true =>
    congr 2
    rw [Bool.eq_iff_iff, isClaimedBy_eq_true, isClaimedBy_eq_true]
    constructor
    · rintro ⟨claimer, early, target⟩
      exact ⟨claimer, List.mem_append_left _ early, target⟩
    · rintro ⟨claimer, member, target⟩
      rw [List.mem_append, List.mem_cons] at member
      rcases member with early | rfl | late
      · exact ⟨claimer, early, target⟩
      · rw [isNamed_of_target? target] at isUnnamed
        cases isUnnamed
      · rw [ClaimsFirst, List.pairwise_append, List.pairwise_cons] at claimsFirst
        rw [← claimsPositional_of_target? target here] at positional
        cases isUnnamed.symm.trans (claimsFirst.2.1.1 claimer late positional)

/-- An open slot is left, since the unnamed arguments in front are fewer than the open places. -/
theorem Arranged.exists_place_of_unnamed (soFar : Arranged params placed slots)
    (fits : Fits params (placed ++ argument :: rest))
    (claimsFirst : ClaimsFirst params (placed ++ argument :: rest))
    (isUnnamed : argument.isNamed = false) : ∃ next, Slot.place attr slots argument = .ok next := by
  have room : (withoutNames placed).length < (openSlots params placed slots).length := by
    have room := fits.room
    rw [← openPlaces_of_claimsFirst claimsFirst isUnnamed, ← soFar.map_openSlots, List.length_map]
      at room
    refine Nat.lt_of_lt_of_le ?_ room
    simp [withoutNames, isUnnamed]
  obtain ⟨⟨slot, index⟩, found⟩ : ∃ place,
      (openSlots params placed slots)[(withoutNames placed).length]? = some place :=
    ⟨_, List.getElem?_eq_getElem room⟩
  obtain ⟨here, isOpenPlace⟩ := mem_openSlots (List.mem_of_getElem? found)
  have free : slot.argument = none := by
    by_contra taken
    obtain ⟨holder, holds⟩ := Option.ne_none_iff_exists'.1 taken
    have ranked := soFar.getElem?_withoutNames.2
      ⟨index, slot, by rw [← soFar.map_openSlots, List.getElem?_map, found]; rfl, here, holds⟩
    rw [List.getElem?_eq_none (Nat.le_refl _)] at ranked
    cases ranked
  have isOpen : slot.isOpen = true := by
    rw [Slot.isOpenPlace, Bool.and_eq_true] at isOpenPlace
    rw [Slot.isOpen, free, isOpenPlace.1, Option.isNone_none, Bool.and_true]
  -- So there is a first open slot.
  obtain ⟨first, isFirst⟩ := Option.isSome_iff_exists.1
    (List.findIdx?_isSome.trans (List.any_eq_true.2 ⟨slot, List.mem_of_getElem? here, isOpen⟩))
  obtain ⟨inside, opened, _⟩ := List.findIdx?_eq_some_iff_getElem.1 isFirst
  rw [Slot.isOpen, Bool.and_eq_true, Option.isNone_iff_eq_none] at opened
  have unused : slots[first]? = some ⟨slots[first].param, none⟩ := by
    rw [List.getElem?_eq_getElem inside, ← opened.2]
  exact place_of_free ((indexFor?_of_unnamed isUnnamed).trans isFirst) unused

theorem Arranged.exists_place (attr : String) (soFar : Arranged params placed slots)
    (fits : Fits params (placed ++ argument :: rest))
    (claimsFirst : ClaimsFirst params (placed ++ argument :: rest)) :
    ∃ next, Slot.place attr slots argument = .ok next := by
  cases isNamed : argument.isNamed with
  | true => exact soFar.exists_place_of_named fits claimsFirst isNamed
  | false => exact soFar.exists_place_of_unnamed fits claimsFirst isNamed

theorem Arranged.placeAll_eq_nil (rest : List Argument) : ∀ placed slots,
    Arranged params placed slots → Fits params (placed ++ rest) →
      ClaimsFirst params (placed ++ rest) → (Slot.placeAll attr slots rest).2 = [] := by
  induction rest with
  | nil => exact fun _ _ _ _ _ => rfl
  | cons argument rest ih =>
    intro placed slots soFar fits claimsFirst
    obtain ⟨next, taken⟩ := soFar.exists_place attr fits claimsFirst
    rw [Slot.placeAll, taken]
    rw [List.append_cons] at fits claimsFirst
    exact ih _ next (soFar.place taken) fits claimsFirst

theorem map_content_bounds (slots : List Slot) :
    (slots.filterMap bound?).map Bound.content =
      (slots.map content).filterMap fun (param, argument) => argument.map (param, ·) := by
  rw [List.map_filterMap, List.filterMap_map]
  refine List.filterMap_congr fun slot _ => ?_
  simp only [bound?, content, Option.map_map, Function.comp_def, Bound.content]

theorem lacks_nothing_iff (applied : Attribute) (slots : List Slot) :
    slots.filterMap (lack applied) = [] ↔ ∀ held ∈ slots.map content,
      held.2 = none → held.1.isRequired = false := by
  rw [List.filterMap_eq_nil_iff, List.forall_mem_map]
  refine forall_congr' fun slot => forall_congr' fun _ => ?_
  cases holds : slot.argument <;> simp [lack, content, holds]

end Slot

namespace AttributeDecl

open Argument

structure IgnoresOrder (decl : AttributeDecl) (first second : Attribute) : Prop where
  bound : ∀ bounds others, first.bind decl = .ok bounds → second.bind decl = .ok others →
    bounds.map Bound.content = others.map Bound.content
  namedFirst : ∀ bounds, first.bind decl = .ok bounds →
    second.arguments = withNames second.arguments ++ withoutNames second.arguments →
      ∃ others, second.bind decl = .ok others ∧
        others.map Bound.content = bounds.map Bound.content
  unclaimed : (∀ argument ∈ first.arguments, argument.claimsPositional decl.params = false) →
    ((∃ bounds, first.bind decl = .ok bounds) ↔ ∃ others, second.bind decl = .ok others)

variable {decl : AttributeDecl} {first second : Attribute} {bounds : List Bound}

theorem map_content_of_rearranged {others : List Bound}
    (same : Rearranged first.arguments second.arguments) (isBound : first.bind decl = .ok bounds)
    (isBoundToo : second.bind decl = .ok others) :
    bounds.map Bound.content = others.map Bound.content := by
  obtain ⟨done, _, rfl⟩ := Attribute.bind_eq_ok_iff.1 isBound
  obtain ⟨doneToo, _, rfl⟩ := Attribute.bind_eq_ok_iff.1 isBoundToo
  rw [Slot.map_content_bounds, Slot.map_content_bounds,
    (Attribute.arranged_placement done).map_content (Attribute.arranged_placement doneToo) same]

theorem exists_bind_of_claimsFirst (same : Rearranged first.arguments second.arguments)
    (claimsFirst : ClaimsFirst decl.params second.arguments)
    (isBound : first.bind decl = .ok bounds) : ∃ others, second.bind decl = .ok others := by
  obtain ⟨done, complete, _⟩ := Attribute.bind_eq_ok_iff.1 isBound
  have arranged := Attribute.arranged_placement done
  have doneToo : (Attribute.placement decl second).2 = [] :=
    Slot.Arranged.placeAll_eq_nil second.arguments [] _ (Slot.arranged_free decl.params)
      (same.fits arranged.fits) claimsFirst
  refine ⟨_, Attribute.bind_eq_ok_iff.2 ⟨doneToo, ?_, rfl⟩⟩
  rw [Slot.lacks_nothing_iff] at complete ⊢
  rwa [← arranged.map_content (Attribute.arranged_placement doneToo) same]

theorem ignoresOrder (decl : AttributeDecl) {first second : Attribute}
    (same : Rearranged first.arguments second.arguments) : decl.IgnoresOrder first second := by
  constructor
  case bound => exact fun _ _ => map_content_of_rearranged same
  case namedFirst =>
    intro bounds isBound namedFirst
    obtain ⟨others, isBoundToo⟩ :=
      exists_bind_of_claimsFirst same (claimsFirst_of_namedFirst namedFirst) isBound
    exact ⟨others, isBoundToo, map_content_of_rearranged same.symm isBoundToo isBound⟩
  case unclaimed =>
    intro unclaimed
    have unclaimedToo := same.claimsPositional_eq_false unclaimed
    exact ⟨fun ⟨_, isBound⟩ =>
        exists_bind_of_claimsFirst same (claimsFirst_of_unclaimed unclaimedToo) isBound,
      fun ⟨_, isBound⟩ =>
        exists_bind_of_claimsFirst same.symm (claimsFirst_of_unclaimed unclaimed) isBound⟩

end AttributeDecl

namespace Seating

open Library

def text (name value : String) : Argument :=
  .named (ident name) (.literal (.string value) Span.zero)

def place : Argument :=
  .positional (.list [.reference (ident "row") Span.zero, .reference (ident "number") Span.zero]
    Span.zero)

def uniqueDecl : AttributeDecl := ⟨ident "@@unique", keyParams, [], Span.zero⟩

/-- `@@unique([row, number], name: "seat", map: "seat_key")` -/
def seatKey : Attribute :=
  ⟨ident "@@unique", [place, text "name" "seat", text "map" "seat_key"], Span.zero⟩

/-- `@@unique(map: "seat_key", [row, number], name: "seat")` -/
def rearranged : Attribute :=
  ⟨ident "@@unique", [text "map" "seat_key", place, text "name" "seat"], Span.zero⟩

theorem ignoresOrder_seatKey :
    Argument.Rearranged seatKey.arguments rearranged.arguments ∧
      (∃ bounds, seatKey.bind uniqueDecl = .ok bounds ∧ bounds.length = 3) ∧
      uniqueDecl.IgnoresOrder seatKey rearranged := by
  have same : Argument.Rearranged seatKey.arguments rearranged.arguments := ⟨rfl, .swap _ _ _⟩
  exact ⟨same, ⟨_, rfl, rfl⟩, AttributeDecl.ignoresOrder uniqueDecl same⟩

def allow (arguments : List Argument) : Attribute := ⟨ident "@@allow", arguments, Span.zero⟩

def allowDecl : AttributeDecl :=
  ⟨ident "@@allow", [byPosition "operation" string, byPosition "condition" boolean], [],
    Span.zero⟩

def always : Argument := .positional (.literal (.boolean true) Span.zero)

-- The condition would take the slot of the operation.
example : ((allow [text "operation" "read", always]).bind allowDecl).isOk = true ∧
    ((allow [always, text "operation" "read"]).bind allowDecl).isOk = false := by
  decide

end Seating

end Schemata
