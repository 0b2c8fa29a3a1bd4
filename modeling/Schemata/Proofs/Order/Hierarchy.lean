import Schemata.Proofs.Order.Permutations
import Schemata.Proofs.Schema.Legality

set_option autoImplicit false

namespace Schemata

theorem UniqueNames.perm {models others : List Model} (unique : UniqueNames models)
    (perm : others.Perm models) : UniqueNames others := by
  unfold UniqueNames at unique ⊢
  exact (perm.map _).nodup_iff.2 unique

def Base.move (place : Nat → Nat) (base : Base) : Base := { base with index := place base.index }

namespace Hierarchy

def Ancestor.move (place : Nat → Nat) (ancestor : Ancestor) : Ancestor :=
  { ancestor with index := place ancestor.index }

def Lineage.move (place : Nat → Nat) (lineage : Lineage) : Lineage :=
  ⟨lineage.visited.map place, lineage.ancestors.map (Ancestor.move place)⟩

structure Moves (place : Nat → Nat) (models others : List Model) : Prop where
  perm : others.Perm models
  unique : UniqueNames models
  injective : Function.Injective place
  same : ∀ index, others[place index]? = models[index]?

theorem exists_moves {models others : List Model} (unique : UniqueNames models)
    (perm : others.Perm models) : ∃ place, Moves place models others := by
  obtain ⟨place, injective, same⟩ := exists_place_of_perm perm.symm
  exact ⟨place, perm, unique, injective, same⟩

namespace Moves

variable {place : Nat → Nat} {models others : List Model} (moves : Moves place models others)
include moves

theorem uniqueToo : UniqueNames others := moves.unique.perm moves.perm

theorem indexOf?_map (name : String) :
    indexOf? others name = (indexOf? models name).map place := by
  cases found : indexOf? models name with
  | some index =>
    obtain ⟨model, here, named⟩ := (indexOf?_eq_some_iff moves.unique).1 found
    exact (indexOf?_eq_some_iff moves.uniqueToo).2 ⟨model, (moves.same index).trans here, named⟩
  | none =>
    unfold indexOf? at found ⊢
    rw [List.findIdx?_eq_none_iff] at found
    rw [Option.map_none, List.findIdx?_eq_none_iff]
    exact fun model member => found model (moves.perm.mem_iff.1 member)

theorem basesOf_map (model : Model) :
    basesOf others model = (basesOf models model).map (Base.move place) := by
  unfold basesOf
  rw [List.map_filterMap]
  refine congrArg (List.filterMap · model.bases) (funext fun name => ?_)
  rw [moves.indexOf?_map]
  cases indexOf? models name.name with
  | none => rfl
  | some index =>
    simp only [Option.map_some, Option.bind_eq_bind, Option.bind_some, moves.same]
    cases models[index]? <;> rfl

theorem basesAt_map (index : Nat) :
    basesAt others (place index) = (basesAt models index).map (Base.move place) := by
  unfold basesAt
  rw [moves.same]
  cases models[index]? with
  | none => rfl
  | some model => exact moves.basesOf_map model

theorem gather_move (fuel : Nat) : ∀ (viaDelegate : Bool) (lineage : Lineage) (node : Nat),
    gather others fuel viaDelegate (lineage.move place) (place node) =
      (gather models fuel viaDelegate lineage node).move place := by
  induction fuel with
  | zero => exact fun viaDelegate lineage node => rfl
  | succ fuel ih =>
    intro viaDelegate lineage node
    have visits (lineage : Lineage) (base : Base) :
        visit others fuel viaDelegate (lineage.move place) (base.move place) =
          (visit models fuel viaDelegate lineage base).move place := by
      have seen : (base.move place).index ∈ (lineage.move place).visited ↔
          base.index ∈ lineage.visited :=
        List.mem_map_of_injective moves.injective
      unfold visit
      rw [if_congr seen rfl rfl, apply_ite (Lineage.move place)]
      refine if_congr Iff.rfl rfl ?_
      cases kind : base.kind with
      | none => simp [Base.move, Lineage.move, kind]
      | some kind' =>
        have inner := ih (viaDelegate || kind' == .delegate)
          { lineage with visited := base.index :: lineage.visited } base.index
        simp only [Base.move, kind]
        simp only [Lineage.move, List.map_cons] at inner ⊢
        rw [inner]
        simp [Ancestor.move]
    rw [gather_succ, gather_succ, moves.basesAt_map, List.foldl_map]
    exact List.foldl_hom (Lineage.move place) visits

theorem ancestorsAt_map (index : Nat) :
    ancestorsAt others (place index) = (ancestorsAt models index).map (Ancestor.move place) := by
  have gathered := moves.gather_move (models.length + 1) false ⟨[index], []⟩ index
  unfold ancestorsAt
  rw [moves.perm.length_eq]
  exact congrArg Lineage.ancestors gathered

theorem reachingFields_eq (index : Nat) (model : Model) :
    reachingFields others (place index) model = reachingFields models index model := by
  have inherited (ancestor : Ancestor) :
      inheritedFields others (ancestor.move place) = inheritedFields models ancestor := by
    unfold inheritedFields
    simp only [Ancestor.move, moves.same]
  rw [reachingFields, moves.ancestorsAt_map, List.flatMap_map, funext inherited, reachingFields]

theorem visibleAttributes_eq (index : Nat) (model : Model) :
    visibleAttributes others (place index) model = visibleAttributes models index model := by
  have inherited (ancestor : Ancestor) :
      inheritedAttributes others (ancestor.move place) = inheritedAttributes models ancestor := by
    unfold inheritedAttributes
    simp only [Ancestor.move, moves.same]
  rw [visibleAttributes, moves.ancestorsAt_map, List.flatMap_map, funext inherited,
    visibleAttributes]

theorem delegateOf_eq (index : Nat) : delegateOf others (place index) = delegateOf models index := by
  unfold delegateOf
  rw [moves.basesAt_map, List.find?_map]
  simp only [Function.comp_def, Base.move, Option.bind_map, moves.same]

theorem viewAt_eq (index : Nat) (model : Model) :
    viewAt others (place index) model = viewAt models index model := by
  rw [viewAt, visibleFields, moves.reachingFields_eq, moves.visibleAttributes_eq,
    moves.delegateOf_eq, viewAt, visibleFields]

theorem view?_eq (name : String) : (ofModels others).view? name = (ofModels models).view? name := by
  cases found : indexOf? models name with
  | some index =>
    obtain ⟨model, here, rfl⟩ := (indexOf?_eq_some_iff moves.unique).1 found
    rw [view?_ofModels moves.uniqueToo ((moves.same index).trans here),
      view?_ofModels moves.unique here, moves.viewAt_eq]
  | none =>
    rw [view?_of_unknown found,
      view?_of_unknown (by rw [moves.indexOf?_map, found, Option.map_none])]

theorem isBase_iff {base index : Nat} :
    IsBase others (place base) (place index) ↔ IsBase models base index := by
  have places : ((basesAt models index).map (Base.move place)).map Base.index =
      ((basesAt models index).map Base.index).map place := by
    rw [List.map_map, List.map_map]
    rfl
  rw [IsBase, moves.basesAt_map, places, IsBase]
  exact List.mem_map_of_injective moves.injective

theorem faultless (known : Faultless others) : Faultless models where
  unique := moves.unique
  lawful := by
    refine ⟨Subrelation.wf (fun isBase => moves.isBase_iff.2 isBase)
      (InvImage.wf place known.lawful.founded), fun index base member => ?_⟩
    refine known.lawful.legal (place index) (base.move place) ?_
    rw [moves.basesAt_map]
    exact List.mem_map_of_mem member
  single model member := by
    have single := known.single model (moves.perm.mem_iff.2 member)
    rw [moves.basesOf_map, List.countP_map] at single
    exact single
  distinct index model here := by
    have distinct := known.distinct (place index) model ((moves.same index).trans here)
    rwa [moves.reachingFields_eq] at distinct

end Moves

end Hierarchy

end Schemata
