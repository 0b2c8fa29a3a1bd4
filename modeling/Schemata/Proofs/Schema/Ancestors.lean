import Schemata.Proofs.Schema.Cycles

set_option autoImplicit false

namespace Schemata

/-- Every item stands behind its bases. -/
def BasesFirst {α : Type} (isBase : α → α → Prop) (items : List α) : Prop :=
  ∀ before item, before ++ [item] <+: items → ∀ base, isBase base item → base ∈ before

namespace BasesFirst

variable {α : Type} {isBase : α → α → Prop} {items : List α}

theorem nil : BasesFirst isBase [] := by
  intro before item within
  simp at within

theorem concat {last : α} (ordered : BasesFirst isBase items)
    (known : ∀ base, isBase base last → base ∈ items) : BasesFirst isBase (items ++ [last]) := by
  intro before item within base isBaseOf
  rcases List.prefix_concat_iff.1 within with whole | within
  · obtain ⟨rfl, same⟩ := List.append_inj' whole rfl
    cases same
    exact known base isBaseOf
  · exact ordered before item within base isBaseOf

theorem mem {item base : α} (ordered : BasesFirst isBase items) (found : item ∈ items)
    (isBaseOf : isBase base item) : base ∈ items := by
  obtain ⟨before, after, rfl⟩ := List.append_of_mem found
  have within : before ++ [item] <+: before ++ item :: after := ⟨after, by simp⟩
  exact List.mem_append_left _ (ordered before item within base isBaseOf)

theorem filterMap {β : Type} {convert : α → Option β} {isBaseOf : β → β → Prop}
    (ordered : BasesFirst isBase items)
    (lifts : ∀ item value base, convert item = some value → isBaseOf base value →
      ∃ under, isBase under item ∧ convert under = some base) :
    BasesFirst isBaseOf (items.filterMap convert) := by
  rintro before value ⟨behind, split⟩ base isBaseOfValue
  -- The item that stands for `value` is the first one behind those that stand for `before`, but
  -- for items in between that stand for none.
  obtain ⟨front, back, rfl, converted, -⟩ := List.filterMap_eq_append_iff.1 split.symm
  obtain ⟨early, late, rfl, rfl, last⟩ := List.filterMap_eq_append_iff.1 converted
  obtain ⟨skipped, item, others, rfl, dropped, known, -⟩ := List.filterMap_eq_cons_iff.1 last
  obtain ⟨under, isBaseOfItem, same⟩ := lifts item value base known isBaseOfValue
  have within : (early ++ skipped) ++ [item] <+: early ++ (skipped ++ item :: others) ++ back :=
    ⟨others ++ back, by simp⟩
  rcases List.mem_append.1 (ordered _ _ within under isBaseOfItem) with found | found
  · exact List.mem_filterMap.2 ⟨under, found, same⟩
  · rw [dropped under found] at same
    cases same

end BasesFirst

namespace Hierarchy

variable {models : List Model} {expanding : List Nat} {node : Nat}

def Lineage.places (lineage : Lineage) : List Nat := lineage.ancestors.map Ancestor.index

/--
What holds while ancestors are gathered. The models that were looked at are those whose bases are
just `expanding`, and the ancestors that are complete.
-/
structure Lineage.Sound (models : List Model) (expanding : List Nat) (lineage : Lineage) :
    Prop where
  distinct : lineage.visited.Nodup
  bounded : ∀ index ∈ lineage.visited, index < models.length
  visited : ∀ index, index ∈ lineage.visited ↔ index ∈ expanding ∨ index ∈ lineage.places
  once : lineage.places.Nodup
  separate : ∀ index ∈ expanding, index ∉ lineage.places
  basesFirst : BasesFirst (IsBase models) lineage.places

structure Lineage.Gathers (models : List Model) (expanding : List Nat) (node : Nat)
    (bases : List Nat) (lineage after : Lineage) : Prop where
  sound : after.Sound models expanding
  kept : lineage.places ⊆ after.places
  reached : ∀ index ∈ after.places,
    index ∈ lineage.places ∨ Relation.TransGen (IsBase models) index node
  complete : ∀ base ∈ bases, base ∈ after.places

namespace Lineage

theorem Gathers.length_le {bases : List Nat} {lineage after : Lineage}
    (sound : lineage.Sound models expanding)
    (gathers : lineage.Gathers models expanding node bases after) :
    lineage.visited.length ≤ after.visited.length := by
  refine sound.distinct.length_le_of_subset fun index found => ?_
  refine (gathers.sound.visited index).2 (((sound.visited index).1 found).imp id fun complete => ?_)
  exact gathers.kept complete

theorem Sound.expand {lineage : Lineage} {base : Nat} (sound : lineage.Sound models expanding)
    (fresh : base ∉ lineage.visited) (known : base < models.length) :
    ({ lineage with visited := base :: lineage.visited } : Lineage).Sound models
      (base :: expanding) where
  distinct := List.nodup_cons.2 ⟨fresh, sound.distinct⟩
  bounded := List.forall_mem_cons.2 ⟨known, sound.bounded⟩
  visited index := by
    rw [List.mem_cons, List.mem_cons, sound.visited index, or_assoc]
    rfl
  once := sound.once
  separate := List.forall_mem_cons.2
    ⟨fun complete => fresh ((sound.visited base).2 (.inr complete)), sound.separate⟩
  basesFirst := sound.basesFirst

theorem Sound.complete {lineage : Lineage} {base : Nat} {viaDelegate : Bool}
    (sound : lineage.Sound models (base :: expanding)) (fresh : base ∉ expanding)
    (below : ∀ index, IsBase models index base → index ∈ lineage.places) :
    ({ lineage with ancestors := lineage.ancestors ++ [⟨base, viaDelegate⟩] } : Lineage).Sound
      models expanding := by
  have places : ({ lineage with ancestors := lineage.ancestors ++ [⟨base, viaDelegate⟩] } :
      Lineage).places = lineage.places ++ [base] := by
    simp [Lineage.places]
  refine ⟨sound.distinct, sound.bounded, fun index => ?_, ?_, fun index found => ?_, ?_⟩
  · rw [places]
    refine (sound.visited index).trans ?_
    simp only [List.mem_cons, List.mem_append, List.not_mem_nil]
    grind
  · rw [places, List.nodup_append]
    refine ⟨sound.once, by simp, fun index found other same => ?_⟩
    rw [List.mem_singleton] at same
    rintro rfl
    exact sound.separate index (same ▸ List.mem_cons_self) found
  · rw [places, List.mem_append, List.mem_singleton, not_or]
    exact ⟨sound.separate index (List.mem_cons_of_mem _ found),
      fun same => fresh (same ▸ found)⟩
  · rw [places]
    exact sound.basesFirst.concat below

end Lineage

def visit (models : List Model) (fuel : Nat) (viaDelegate : Bool) (lineage : Lineage)
    (base : Base) : Lineage :=
  if base.index ∈ lineage.visited then lineage
  else
    let lineage := { lineage with visited := base.index :: lineage.visited }
    match base.kind with
    | none => lineage
    | some kind =>
        let through := viaDelegate || kind == .delegate
        let lineage := gather models fuel through lineage base.index
        { lineage with ancestors := lineage.ancestors ++ [⟨base.index, through⟩] }

theorem gather_succ (models : List Model) (fuel : Nat) (viaDelegate : Bool) (lineage : Lineage)
    (node : Nat) :
    gather models (fuel + 1) viaDelegate lineage node =
      (basesAt models node).foldl (visit models fuel viaDelegate) lineage :=
  rfl

theorem not_transGen_self (founded : WellFounded (IsBase models)) (index : Nat) :
    ¬ Relation.TransGen (IsBase models) index index :=
  fun cycle => founded.transGen.asymmetric index index cycle cycle

structure Lawful (models : List Model) : Prop where
  founded : WellFounded (IsBase models)
  legal : ∀ index, ∀ base ∈ basesAt models index, base.kind.isSome = true

variable {fuel : Nat}

def Leads (models : List Model) (expanding : List Nat) (node : Nat) : Prop :=
  ∀ index ∈ expanding, index = node ∨ Relation.TransGen (IsBase models) node index

theorem Leads.expand {base : Nat} (leads : Leads models expanding node)
    (isBase : IsBase models base node) : Leads models (base :: expanding) base := by
  refine List.forall_mem_cons.2 ⟨.inl rfl, fun index found => .inr ?_⟩
  rcases leads index found with rfl | extended
  · exact .single isBase
  · exact (Relation.TransGen.single isBase).trans extended

theorem Leads.not_mem {base : Nat} (founded : WellFounded (IsBase models))
    (leads : Leads models expanding node) (isBase : IsBase models base node) :
    base ∉ expanding := by
  intro found
  rcases leads base found with rfl | extended
  · exact not_transGen_self founded base (.single isBase)
  · exact not_transGen_self founded node (extended.tail isBase)

def Gathering (models : List Model) (fuel : Nat) : Prop :=
  ∀ viaDelegate lineage expanding node, Lineage.Sound models expanding lineage →
    Leads models expanding node → models.length + 1 ≤ fuel + lineage.visited.length →
      lineage.Gathers models expanding node ((basesAt models node).map Base.index)
        (gather models fuel viaDelegate lineage node)

theorem gathers_visit (lawful : Lawful models) (gathering : Gathering models fuel)
    (viaDelegate : Bool) {lineage : Lineage} {base : Base}
    (sound : lineage.Sound models expanding) (leads : Leads models expanding node)
    (enough : models.length ≤ fuel + lineage.visited.length) (member : base ∈ basesAt models node) :
    lineage.Gathers models expanding node [base.index]
      (visit models fuel viaDelegate lineage base) := by
  have isBase : IsBase models base.index node := List.mem_map_of_mem member
  have outside := leads.not_mem lawful.founded isBase
  unfold visit
  split
  next seen =>
    -- A model that is still being expanded would close a cycle, so the base is complete.
    have complete := ((sound.visited base.index).1 seen).resolve_left outside
    exact ⟨sound, List.Subset.refl _, fun index found => .inl found,
      List.forall_mem_singleton.2 complete⟩
  next fresh =>
    obtain ⟨kind, isKind⟩ := Option.isSome_iff_exists.1 (lawful.legal node base member)
    simp only [isKind]
    -- The base is expanded, and once its own bases are complete, it is complete itself.
    have expanded := sound.expand fresh (lt_length_of_isBase isBase)
    have gathers := gathering (viaDelegate || kind == .delegate) _ _ base.index expanded
      (leads.expand isBase) (by rw [List.length_cons]; omega)
    have places (lineage : Lineage) (through : Bool) :
        ({ lineage with ancestors := lineage.ancestors ++ [⟨base.index, through⟩] } :
          Lineage).places = lineage.places ++ [base.index] := by
      simp [Lineage.places]
    refine ⟨gathers.sound.complete outside gathers.complete, ?_, ?_, ?_⟩
    · rw [places]
      exact fun index found => List.mem_append_left _ (gathers.kept found)
    · rw [places]
      refine List.forall_mem_append.2 ⟨fun index found => ?_, ?_⟩
      · exact (gathers.reached index found).imp id fun below => below.tail isBase
      · exact List.forall_mem_singleton.2 (.inr (.single isBase))
    · rw [places]
      exact List.forall_mem_singleton.2 (List.mem_append_right _ List.mem_cons_self)

theorem gathers_foldl (lawful : Lawful models) (gathering : Gathering models fuel)
    {viaDelegate : Bool} (leads : Leads models expanding node) (bases : List Base)
    (members : ∀ base ∈ bases, base ∈ basesAt models node) :
    ∀ lineage : Lineage, lineage.Sound models expanding →
      models.length ≤ fuel + lineage.visited.length →
        lineage.Gathers models expanding node (bases.map Base.index)
          (bases.foldl (visit models fuel viaDelegate) lineage) := by
  induction bases with
  | nil =>
    exact fun lineage sound _ => ⟨sound, List.Subset.refl _, fun _ found => .inl found, nofun⟩
  | cons base rest ih =>
    intro lineage sound enough
    have first := gathers_visit lawful gathering viaDelegate sound leads enough
      (members base List.mem_cons_self)
    -- Fuel is left for the other bases, since no model that was looked at is forgotten.
    have grown := first.length_le sound
    have others := ih (fun other found => members other (List.mem_cons_of_mem _ found)) _
      first.sound (by omega)
    refine ⟨others.sound, List.Subset.trans first.kept others.kept, fun index found => ?_, ?_⟩
    · rcases others.reached index found with found | below
      · exact first.reached index found
      · exact .inr below
    · exact List.forall_mem_cons.2
        ⟨others.kept (first.complete _ List.mem_cons_self), others.complete⟩

theorem gathering (lawful : Lawful models) (fuel : Nat) : Gathering models fuel := by
  induction fuel with
  | zero =>
    -- More models would have been looked at than there are.
    intro viaDelegate lineage expanding node sound leads enough
    have short := length_le_of_bounded sound.distinct sound.bounded
    omega
  | succ fuel ih =>
    intro viaDelegate lineage expanding node sound leads enough
    rw [gather_succ]
    exact gathers_foldl lawful ih leads (basesAt models node) (fun _ found => found) lineage sound
      (by omega)

structure Places (models : List Model) (root : Nat) (places : List Nat) : Prop where
  once : places.Nodup
  mem_iff : ∀ index, index ∈ places ↔ Relation.TransGen (IsBase models) index root
  basesFirst : BasesFirst (IsBase models) places

theorem places_ancestorsAt (lawful : Lawful models) {root : Nat} (known : root < models.length) :
    Places models root ((ancestorsAt models root).map Ancestor.index) := by
  have start : Lineage.Sound models [root] ⟨[root], []⟩ := by
    refine ⟨by simp, by simpa using known, by simp [Lineage.places], by simp [Lineage.places],
      by simp [Lineage.places], BasesFirst.nil⟩
  have gathers := gathering lawful (models.length + 1) false _ _ root start
    (List.forall_mem_singleton.2 (.inl rfl)) (by simp)
  refine ⟨gathers.sound.once, fun index => ⟨fun found => ?_, fun below => ?_⟩,
    gathers.sound.basesFirst⟩
  · exact (gathers.reached index found).resolve_left (by simp [Lineage.places])
  · -- The bases of the model are ancestors, and so are the bases of every ancestor.
    induction below using Relation.TransGen.head_induction_on with
    | single isBase => exact gathers.complete _ isBase
    | head isBase _ ih => exact gathers.sound.basesFirst.mem ih isBase

end Hierarchy

end Schemata
