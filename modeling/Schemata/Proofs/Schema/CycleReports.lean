import Mathlib.Data.List.Chain
import Schemata.Proofs.Schema.Ancestors

set_option autoImplicit false

namespace Schemata

def Diagnostic.isCycle (diagnostic : Diagnostic) : Bool :=
  match diagnostic.issue with
  | .inheritance (.cycle _) => true
  | _ => false

namespace Hierarchy

variable {models : List Model} {root : Nat}

/-- The model at `index` extends the model at `base`, whether it is a legal base or not. -/
def Extends (models : List Model) (index base : Nat) : Prop :=
  ∃ model, models[index]? = some model ∧ ∃ name ∈ model.bases, indexOf? models name.name = some base

def ReachesCycle (models : List Model) (root : Nat) : Prop :=
  ∃ node, Relation.ReflTransGen (Extends models) root node ∧
    Relation.TransGen (Extends models) node node

/--
The path starts at `root` and goes on to a base at each step. Its last model stands on it once
before, and the models before the last are distinct.
-/
structure LeadsIntoCycle (models : List Model) (root : Nat) (path : List Nat) : Prop where
  starts : path.head? = some root
  follows : path.IsChain (Extends models)
  closes : ∃ front last, path = front ++ [last] ∧ front.Nodup ∧ last ∈ front

def basePlaces (models : List Model) (index : Nat) : List Nat :=
  (basesAt models index).map Base.index

theorem exists_getElem_of_indexOf? {name : String} {index : Nat}
    (place : indexOf? models name = some index) : ∃ model, models[index]? = some model := by
  rw [indexOf?, List.findIdx?_eq_some_iff_getElem] at place
  obtain ⟨inside, _, _⟩ := place
  exact ⟨models[index], List.getElem?_eq_getElem inside⟩

theorem extends_iff {index base : Nat} :
    Extends models index base ↔ base ∈ basePlaces models index := by
  rw [Extends, basePlaces, basesAt]
  cases models[index]? with
  | none => simp
  | some model =>
    simp only [Option.some.injEq, exists_eq_left', List.mem_map, basesOf, List.mem_filterMap]
    constructor
    · rintro ⟨name, listed, place⟩
      obtain ⟨target, there⟩ := exists_getElem_of_indexOf? place
      exact ⟨⟨base, target.baseKind?⟩, ⟨name, listed, by simp [place, there]⟩, rfl⟩
    · rintro ⟨found, ⟨name, listed, resolved⟩, rfl⟩
      obtain ⟨place, known, resolved⟩ := Option.bind_eq_some_iff.1 resolved
      obtain ⟨target, _, same⟩ := Option.bind_eq_some_iff.1 resolved
      cases same
      exact ⟨name, listed, known⟩

theorem LeadsIntoCycle.reachesCycle {path : List Nat} (leads : LeadsIntoCycle models root path) :
    ReachesCycle models root := by
  obtain ⟨front, last, rfl, _, again⟩ := leads.closes
  obtain ⟨before, behind, rfl⟩ := List.append_of_mem again
  have follows := leads.follows
  have regroup : before ++ last :: behind ++ [last] = before ++ (last :: (behind ++ [last])) := by
    simp
  rw [regroup, List.isChain_split] at follows
  refine ⟨last, ?_, ?_⟩
  · -- The path up to the first place of its last model.
    have reached := List.relationReflTransGen_of_exists_isChain _ follows.1 (by simp)
    have first : (before ++ [last]).head (by simp) = root := by
      have starts := leads.starts
      rw [regroup] at starts
      cases before <;> simpa using starts
    rwa [first, List.getLast_append_singleton] at reached
  · -- The path from there to its end, which takes one step at least.
    obtain ⟨next, rest, whole⟩ : ∃ next rest, behind ++ [last] = next :: rest := by
      cases behind <;> exact ⟨_, _, rfl⟩
    rw [whole, List.isChain_cons_cons] at follows
    have onwards := List.relationReflTransGen_of_exists_isChain _ follows.2.2 (by simp)
    have ending : (next :: rest).getLast (by simp) = last := by
      simp [← whole]
    rw [ending] at onwards
    exact Relation.TransGen.head' follows.2.1 onwards

theorem not_self_of_acc {α : Type} {relation : α → α → Prop} {value : α}
    (settled : Acc relation value) : ¬ relation value value := by
  induction settled with
  | intro value _ ih => exact fun self => ih value self self

theorem not_reachesCycle_of_acc (settled : Acc (IsBase models) root) :
    ¬ ReachesCycle models root := by
  rintro ⟨node, reached, cycle⟩
  have settledNode : Acc (IsBase models) node := by
    clear cycle
    induction reached with
    | refl => exact settled
    | tail _ isBase ih => exact ih.inv (extends_iff.1 isBase)
  -- A settled model is settled for ancestors at any distance, and none of them is itself.
  have below : Relation.TransGen (IsBase models) node node :=
    Relation.transGen_swap.1 (cycle.lift id fun _ _ => extends_iff.1)
  exact not_self_of_acc settledNode.transGen below

section

variable {children : Nat → List Nat}

theorem exists_step_of_foldlM_eq_error {α β ε : Type} {step : β → α → Except ε β} {error : ε}
    (items : List α) : ∀ state, items.foldlM step state = .error error →
      ∃ item ∈ items, ∃ state, step state item = .error error := by
  induction items with
  | nil => exact fun state folded => nomatch folded
  | cons first rest ih =>
    intro state folded
    rw [List.foldlM_cons] at folded
    rcases Except.bind_eq_error.1 folded with stepped | ⟨next, _, folded⟩
    · exact ⟨first, List.mem_cons_self, state, stepped⟩
    · obtain ⟨item, found, state, stepped⟩ := ih next folded
      exact ⟨item, List.mem_cons_of_mem _ found, state, stepped⟩

structure ComesBack (children : Nat → List Nat) (path found : List Nat) : Prop where
  follows : found.IsChain fun parent child => child ∈ children parent
  closes : ∃ front last, found = front ++ [last] ∧ path <+: front ∧ front.Nodup ∧ last ∈ front

theorem isChain_concat {relation : Nat → Nat → Prop} {path : List Nat} {node child : Nat}
    (follows : path.IsChain relation) (ends : path.getLast? = some node)
    (step : relation node child) : (path ++ [child]).IsChain relation := by
  refine List.isChain_append.2 ⟨follows, List.isChain_singleton child, ?_⟩
  rw [ends]
  rintro _ ⟨⟩ _ ⟨⟩
  exact step

theorem comesBack_of_walk (fuel : Nat) : ∀ path finished node found,
    path.getLast? = some node → path.Nodup →
      path.IsChain (fun parent child => child ∈ children parent) →
        walk children fuel path finished node = .error found → ComesBack children path found := by
  induction fuel with
  | zero => exact fun path finished node found _ _ _ walked => nomatch walked
  | succ fuel ih =>
    intro path finished node found ends distinct follows walked
    rw [walk] at walked
    rcases Except.bind_eq_error.1 walked with folded | ⟨_, _, impossible⟩
    next =>
      obtain ⟨child, isChild, finished, stepped⟩ := exists_step_of_foldlM_eq_error _ _ folded
      have further := isChain_concat follows ends isChild
      split at stepped
      next onPath =>
        cases stepped
        exact ⟨further, path, child, rfl, List.prefix_rfl, distinct, onPath⟩
      next notOnPath =>
        split at stepped
        next => cases stepped
        next =>
          have apart := nodup_longer distinct notOnPath
          have back := ih _ _ child found List.getLast?_concat apart further stepped
          obtain ⟨front, last, same, longer, rest⟩ := back.closes
          exact ⟨back.follows, front, last, same, (List.prefix_append path _).trans longer, rest⟩
    next => cases impossible

end

theorem leadsIntoCycle_of_cycleFrom? {path : List Nat}
    (found : cycleFrom? models root = some path) : LeadsIntoCycle models root path := by
  unfold cycleFrom? at found
  simp only at found
  split at found
  next walked =>
    cases found
    have back : ComesBack (basePlaces models) [root] path :=
      comesBack_of_walk _ [root] [] root path rfl (List.pairwise_singleton _ root)
        (List.isChain_singleton root) walked
    obtain ⟨front, last, rfl, longer, distinct, again⟩ := back.closes
    refine ⟨?_, back.follows.imp fun _ _ => extends_iff.2, front, last, rfl, distinct, again⟩
    obtain ⟨behind, rfl⟩ := longer
    rfl
  next => cases found

theorem isSome_cycleFrom?_iff (known : root < models.length) :
    (cycleFrom? models root).isSome ↔ ReachesCycle models root := by
  constructor
  · intro found
    obtain ⟨path, found⟩ := Option.isSome_iff_exists.1 found
    exact (leadsIntoCycle_of_cycleFrom? found).reachesCycle
  · intro reaches
    by_contra noCycle
    rw [Option.not_isSome_iff_eq_none] at noCycle
    exact not_reachesCycle_of_acc (acc_of_cycleFrom? known noCycle) reaches

theorem foldlM_eq_of_forall {α β ε : Type} {step other : β → α → Except ε β} (items : List α)
    (same : ∀ item ∈ items, ∀ state, step state item = other state item) :
    ∀ state, items.foldlM step state = items.foldlM other state := by
  induction items with
  | nil => exact fun state => rfl
  | cons first rest ih =>
    intro state
    rw [List.forall_mem_cons] at same
    rw [List.foldlM_cons, List.foldlM_cons, same.1 state]
    exact bind_congr fun next => ih same.2 next

theorem walk_eq_of_enough {size : Nat} {children : Nat → List Nat}
    (bounded : ∀ parent, ∀ child ∈ children parent, child < size) (fuel : Nat) :
    ∀ more path finished node, fuel ≤ more → path.Nodup → (∀ index ∈ path, index < size) →
      size + 1 ≤ fuel + path.length →
        walk children more path finished node = walk children fuel path finished node := by
  induction fuel with
  | zero =>
    intro more path finished node _ distinct within enough
    have short := length_le_of_bounded distinct within
    omega
  | succ fuel ih =>
    intro more path finished node least distinct within enough
    obtain ⟨more, rfl⟩ : ∃ less, more = less + 1 := ⟨more - 1, by omega⟩
    rw [walk, walk]
    congr 1
    refine foldlM_eq_of_forall _ (fun child isChild finished => ?_) finished
    by_cases onPath : child ∈ path
    next => rw [if_pos onPath, if_pos onPath]
    next =>
      rw [if_neg onPath, if_neg onPath]
      have enoughBehind : size + 1 ≤ fuel + (path ++ [child]).length := by
        rw [List.length_append, List.length_singleton]
        omega
      rw [ih more (path ++ [child]) finished child (by omega) (nodup_longer distinct onPath)
        (bounded_longer within (bounded node child isChild)) enoughBehind]

structure Lineage.Within (size : Nat) (lineage : Lineage) : Prop where
  distinct : lineage.visited.Nodup
  bounded : ∀ index ∈ lineage.visited, index < size

def GathersAlike (models : List Model) (fuel more : Nat) : Prop :=
  ∀ viaDelegate (lineage : Lineage) node, lineage.Within models.length →
    models.length + 1 ≤ fuel + lineage.visited.length →
      gather models more viaDelegate lineage node = gather models fuel viaDelegate lineage node ∧
        (gather models fuel viaDelegate lineage node).Within models.length ∧
        lineage.visited.length ≤ (gather models fuel viaDelegate lineage node).visited.length

theorem visit_alike {fuel more : Nat} (alike : GathersAlike models fuel more)
    (viaDelegate : Bool) {lineage : Lineage} {base : Base} (inside : base.index < models.length)
    (within : lineage.Within models.length)
    (enough : models.length ≤ fuel + lineage.visited.length) :
    visit models more viaDelegate lineage base = visit models fuel viaDelegate lineage base ∧
      (visit models fuel viaDelegate lineage base).Within models.length ∧
      lineage.visited.length ≤ (visit models fuel viaDelegate lineage base).visited.length := by
  unfold visit
  by_cases visited : base.index ∈ lineage.visited
  next => simp only [visited, if_true, within, Nat.le_refl, and_self]
  next =>
    have next : Lineage.Within models.length ⟨base.index :: lineage.visited, lineage.ancestors⟩ :=
      ⟨List.nodup_cons.2 ⟨visited, within.distinct⟩,
        List.forall_mem_cons.2 ⟨inside, within.bounded⟩⟩
    rw [if_neg visited, if_neg visited]
    cases base.kind with
    | none => exact ⟨rfl, next, by simp⟩
    | some kind =>
      have longer : (base.index :: lineage.visited).length = lineage.visited.length + 1 := rfl
      obtain ⟨same, kept, grown⟩ := alike (viaDelegate || kind == .delegate) _ base.index next
        (by simp only [longer]; omega)
      simp only [longer] at grown
      exact ⟨by simp only [same], ⟨kept.distinct, kept.bounded⟩, by simp only; omega⟩

theorem foldl_visit_alike {fuel more : Nat} (alike : GathersAlike models fuel more)
    (viaDelegate : Bool) (bases : List Base) (inside : ∀ base ∈ bases, base.index < models.length) :
    ∀ lineage : Lineage, lineage.Within models.length →
      models.length ≤ fuel + lineage.visited.length →
        bases.foldl (visit models more viaDelegate) lineage =
          bases.foldl (visit models fuel viaDelegate) lineage ∧
        (bases.foldl (visit models fuel viaDelegate) lineage).Within models.length ∧
        lineage.visited.length ≤
          (bases.foldl (visit models fuel viaDelegate) lineage).visited.length := by
  induction bases with
  | nil => exact fun lineage within _ => ⟨rfl, within, Nat.le_refl _⟩
  | cons base rest ih =>
    intro lineage within enough
    rw [List.forall_mem_cons] at inside
    obtain ⟨same, kept, grown⟩ := visit_alike alike viaDelegate inside.1 within enough
    obtain ⟨sameRest, keptRest, grownRest⟩ := ih inside.2 _ kept (by omega)
    rw [List.foldl_cons, List.foldl_cons, same]
    exact ⟨sameRest, keptRest, by omega⟩

theorem gathersAlike (fuel : Nat) : ∀ more, fuel ≤ more → GathersAlike models fuel more := by
  induction fuel with
  | zero =>
    intro more _ viaDelegate lineage node within enough
    have short := length_le_of_bounded within.distinct within.bounded
    omega
  | succ fuel ih =>
    intro more least viaDelegate lineage node within enough
    obtain ⟨more, rfl⟩ : ∃ less, more = less + 1 := ⟨more - 1, by omega⟩
    rw [gather_succ, gather_succ]
    refine foldl_visit_alike (ih more (by omega)) viaDelegate _ (fun base member => ?_) lineage
      within (by omega)
    exact lt_length_of_isBase (List.mem_map_of_mem member : IsBase models base.index node)

def cycleReport (models : List Model) (model : Model) (path : List Nat) : Diagnostic :=
  .error model.name.span (.inheritance (.cycle (path.map (nameAt models))))

theorem message_cycleReport (model : Model) (path : List Nat) :
    (cycleReport models model path).message =
      "Circular inheritance detected: " ++ " -> ".intercalate (path.map (nameAt models)) :=
  rfl

structure WalksExactly (models : List Model) (root : Nat) : Prop where
  found_iff : (cycleFrom? models root).isSome ↔ ReachesCycle models root
  leads : ∀ path, cycleFrom? models root = some path → LeadsIntoCycle models root path
  walkEnds : ∀ fuel, models.length < fuel →
    walk (basePlaces models) fuel [root] [] root =
      walk (basePlaces models) (models.length + 1) [root] [] root
  gatherEnds : ∀ fuel, models.length < fuel →
    gather models fuel false ⟨[root], []⟩ root =
      gather models (models.length + 1) false ⟨[root], []⟩ root

theorem walksExactly (known : root < models.length) : WalksExactly models root where
  found_iff := isSome_cycleFrom?_iff known
  leads _ := leadsIntoCycle_of_cycleFrom?
  walkEnds fuel least :=
    walk_eq_of_enough (fun _ _ isChild => lt_length_of_isBase isChild) _ fuel [root] [] root least
      (List.pairwise_singleton _ root) (List.forall_mem_singleton.2 known) (by simp)
  gatherEnds fuel least :=
    (gathersAlike _ fuel least false ⟨[root], []⟩ root
      ⟨List.pairwise_singleton _ root, List.forall_mem_singleton.2 known⟩ (by simp)).1

theorem filter_isCycle_checkBases (model : Model) :
    (checkBases models model).filter Diagnostic.isCycle = [] := by
  rw [checkBases, List.filter_append, List.append_eq_nil_iff]
  constructor
  · exact List.filter_eq_nil_iff.2 fun diagnostic reported => by
      obtain ⟨name, _, rfl⟩ := List.mem_map.1 reported
      exact Bool.false_ne_true
  · rw [reportIf]
    split <;> rfl

theorem filter_isCycle_clash (model : Model) (previous next : VisibleField) :
    (clash model previous next).filter Diagnostic.isCycle = [] := by
  unfold clash
  simp only
  split
  · split <;> rfl
  · split <;> rfl

theorem filter_isCycle_dedupe (model : Model) (rest : List VisibleField) : ∀ kept,
    (dedupe model kept rest).diagnostics.filter Diagnostic.isCycle = [] := by
  induction rest with
  | nil => exact fun kept => rfl
  | cons next rest ih =>
    intro kept
    rw [dedupe]
    split
    · exact ih _
    · rw [List.filter_append, filter_isCycle_clash, List.nil_append]
      exact ih kept

theorem filter_isCycle_checkCycles :
    (checkCycles models).filter Diagnostic.isCycle =
      models.zipIdx.filterMap fun (model, root) =>
        (cycleFrom? models root).map (cycleReport models model) := by
  rw [checkCycles, List.filter_flatMap, List.filterMap_eq_flatMap_toList]
  congr 1
  funext ⟨model, root⟩
  simp only
  cases cycleFrom? models root <;> rfl

theorem filter_isCycle_check :
    (check models).filter Diagnostic.isCycle =
      models.zipIdx.filterMap fun (model, root) =>
        (cycleFrom? models root).map (cycleReport models model) := by
  have bases : (models.flatMap (checkBases models)).filter Diagnostic.isCycle = [] := by
    rw [List.filter_flatMap]
    exact List.flatMap_eq_nil_iff.2 fun model _ => filter_isCycle_checkBases model
  have fields : (models.zipIdx.flatMap fun (model, index) =>
      (visibleFields models index model).diagnostics).filter Diagnostic.isCycle = [] := by
    rw [List.filter_flatMap]
    exact List.flatMap_eq_nil_iff.2 fun place _ => filter_isCycle_dedupe place.1 _ []
  rw [check, List.filter_append, List.filter_append, bases, fields, filter_isCycle_checkCycles,
    List.nil_append, List.append_nil]

end Hierarchy

/--
Every model of the document has one report of a cycle if one can be reached from it, and none
otherwise. The path of the report leads from the model into a cycle.
-/
theorem Document.reportsCycles (document : Document) :
    ((Hierarchy.check document.models).filter Diagnostic.isCycle =
      document.models.zipIdx.filterMap fun (model, root) =>
        (Hierarchy.cycleFrom? document.models root).map
          (Hierarchy.cycleReport document.models model)) ∧
      (∀ root < document.models.length, Hierarchy.WalksExactly document.models root) ∧
      ∀ model path, (Hierarchy.cycleReport document.models model path).message =
        "Circular inheritance detected: " ++
          " -> ".intercalate (path.map (Hierarchy.nameAt document.models)) :=
  ⟨Hierarchy.filter_isCycle_check, fun _ known => Hierarchy.walksExactly known,
    Hierarchy.message_cycleReport⟩

namespace Loops

def model (name : String) (isAbstract : Bool) (bases : List String) : Model :=
  ⟨⟨name, .zero⟩, isAbstract, bases.map fun base => ⟨base, .zero⟩, [], [], .zero⟩

/-- A diamond of two bases over a cycle, of which one base is illegal, and a model apart. -/
def document : Document :=
  ⟨[.model (model "Page" false ["Block", "Draft"]), .model (model "Block" true ["Node"]),
    .model (model "Draft" false ["Node"]), .model (model "Node" true ["Tree", "Block"]),
    .model (model "Tree" true ["Tree"]), .model (model "Plain" true [])]⟩

example : ((Hierarchy.check document.models).filter Diagnostic.isCycle).map Diagnostic.message =
    ["Circular inheritance detected: Page -> Block -> Node -> Tree -> Tree",
      "Circular inheritance detected: Block -> Node -> Tree -> Tree",
      "Circular inheritance detected: Draft -> Node -> Tree -> Tree",
      "Circular inheritance detected: Node -> Tree -> Tree",
      "Circular inheritance detected: Tree -> Tree"] := by decide +kernel

end Loops

theorem Loops.reportsCycles_page :
    0 < document.models.length ∧
      Hierarchy.cycleFrom? document.models 0 = some [0, 1, 3, 4, 4] ∧
      Hierarchy.WalksExactly document.models 0 :=
  ⟨by decide, by decide +kernel, (Document.reportsCycles document).2.1 0 (by decide)⟩

end Schemata
