import Schemata.Proofs.Schema.Delegates

set_option autoImplicit false

namespace Schemata

namespace Hierarchy

/-- A way from the model at `root` up through bases, and whether one of them is a delegate. -/
inductive Way (models : List Model) (root : Nat) : Bool → Nat → Prop
  | start : Way models root false root
  | step {viaDelegate : Bool} {node : Nat} {base : Base} {kind : BaseKind}
      (way : Way models root viaDelegate node) (member : base ∈ basesAt models node)
      (isKind : base.kind = some kind) :
      Way models root (viaDelegate || kind == .delegate) base.index

variable {models : List Model} {root : Nat}

theorem ways_of_foldl {fuel : Nat} {viaDelegate : Bool} {node : Nat}
    (way : Way models root viaDelegate node)
    (ways : ∀ (viaDelegate : Bool) (lineage : Lineage) (node : Nat),
      Way models root viaDelegate node →
        (∀ ancestor ∈ lineage.ancestors, Way models root ancestor.viaDelegate ancestor.index) →
          ∀ ancestor ∈ (gather models fuel viaDelegate lineage node).ancestors,
            Way models root ancestor.viaDelegate ancestor.index)
    (bases : List Base) (members : ∀ base ∈ bases, base ∈ basesAt models node) :
    ∀ lineage : Lineage,
      (∀ ancestor ∈ lineage.ancestors, Way models root ancestor.viaDelegate ancestor.index) →
        ∀ ancestor ∈ (bases.foldl (visit models fuel viaDelegate) lineage).ancestors,
          Way models root ancestor.viaDelegate ancestor.index := by
  induction bases with
  | nil => exact fun lineage known => known
  | cons base rest ih =>
    intro lineage known
    rw [List.forall_mem_cons] at members
    refine ih members.2 _ ?_
    unfold visit
    split
    next => exact known
    next =>
      cases isKind : base.kind with
      | none => exact known
      | some kind =>
        have here := Way.step way members.1 isKind
        exact List.forall_mem_append.2 ⟨ways _ ⟨base.index :: lineage.visited, lineage.ancestors⟩
          base.index here known, List.forall_mem_singleton.2 here⟩

theorem way_of_mem_ancestorsAt {ancestor : Ancestor} (found : ancestor ∈ ancestorsAt models root) :
    Way models root ancestor.viaDelegate ancestor.index := by
  have ways (fuel : Nat) : ∀ (viaDelegate : Bool) (lineage : Lineage) (node : Nat),
      Way models root viaDelegate node →
        (∀ ancestor ∈ lineage.ancestors, Way models root ancestor.viaDelegate ancestor.index) →
          ∀ ancestor ∈ (gather models fuel viaDelegate lineage node).ancestors,
            Way models root ancestor.viaDelegate ancestor.index := by
    induction fuel with
    | zero => exact fun viaDelegate lineage node way known => known
    | succ fuel ih =>
      intro viaDelegate lineage node way known
      rw [gather_succ]
      exact ways_of_foldl way ih (basesAt models node) (fun _ member => member) lineage known
  exact ways _ false ⟨[root], []⟩ root .start nofun ancestor found

end Hierarchy

namespace Document

variable {document : Document} {model : Model}

theorem mixins_or_delegate_of_way (unique : UniqueNames document.models) {root : Nat}
    (here : document.models[root]? = some model) {viaDelegate : Bool} {place : Nat}
    (way : Hierarchy.Way document.models root viaDelegate place) :
    ∀ base, document.models[place]? = some base →
      if viaDelegate then
        ∃ delegate, document.ReachesDelegate delegate model ∧
          Relation.ReflTransGen document.IsBase base delegate
      else Relation.ReflTransGen (document.ExtendsBy .mixin) base model := by
  have member : model ∈ document.models := List.mem_of_getElem? here
  induction way with
  | start =>
    intro base there
    cases Option.some.inj (here.symm.trans there)
    exact .refl
  | @step viaDelegate node base kind way found isKind ih =>
    intro target there
    -- The bases at a place are those of the model that stands there.
    cases known : document.models[node]? with
    | none => simp [Hierarchy.basesAt, known] at found
    | some heir =>
      have isBase : document.IsBase target heir :=
        (Hierarchy.isBase_iff unique there known).1 (List.mem_map_of_mem found)
      have edge : document.ExtendsBy kind target heir := by
        rw [Hierarchy.basesAt, known] at found
        obtain ⟨_, _, other, there', _, kindOf⟩ := (Hierarchy.mem_basesOf unique).1 found
        cases Option.some.inj (there.symm.trans there')
        exact (extendsBy_iff unique (List.mem_of_getElem? known)).2 ⟨isBase, kindOf ▸ isKind⟩
      have before := ih heir known
      cases viaDelegate with
      | true =>
        obtain ⟨delegate, reached, above⟩ := before
        exact ⟨delegate, reached, .head isBase above⟩
      | false =>
        cases kind with
        | mixin => exact .head edge before
        | delegate =>
          exact ⟨target, ⟨heir, reflTransGen_of_mixins unique member before, edge⟩, .refl⟩

end Document

end Schemata
