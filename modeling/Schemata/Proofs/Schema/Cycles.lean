import Mathlib.Data.List.Nodup
import Mathlib.Order.RelClasses
import Schemata.Proofs.Result
import Schemata.Proofs.Validation.Clean

set_option autoImplicit false

namespace Schemata.Hierarchy

section

variable {children : Nat → List Nat} {size : Nat}

theorem good_of_foldlM {good : Nat → Prop} {step : List Nat → Nat → Except (List Nat) (List Nat)}
    (items : List Nat)
    (each : ∀ item ∈ items, ∀ finished next, step finished item = .ok next →
      (∀ index ∈ finished, good index) → (∀ index ∈ next, good index) ∧ good item) :
    ∀ finished result, items.foldlM step finished = .ok result →
      (∀ index ∈ finished, good index) →
        (∀ index ∈ result, good index) ∧ ∀ item ∈ items, good item := by
  induction items with
  | nil =>
    intro finished result folded known
    cases folded
    exact ⟨known, nofun⟩
  | cons first rest ih =>
    intro finished result folded known
    rw [List.foldlM_cons] at folded
    obtain ⟨next, stepped, folded⟩ := Except.bind_eq_ok.1 folded
    obtain ⟨settled, firstGood⟩ := each first List.mem_cons_self finished next stepped known
    have behind := ih (fun item found => each item (List.mem_cons_of_mem _ found)) next result
      folded settled
    exact ⟨behind.1, List.forall_mem_cons.2 ⟨firstGood, behind.2⟩⟩

theorem length_le_of_bounded {path : List Nat} (distinct : path.Nodup)
    (bounded : ∀ index ∈ path, index < size) : path.length ≤ size := by
  have within : path ⊆ List.range size := fun index found => List.mem_range.2 (bounded index found)
  simpa using distinct.length_le_of_subset within

theorem nodup_longer {path : List Nat} {child : Nat} (distinct : path.Nodup)
    (notOnPath : child ∉ path) : (path ++ [child]).Nodup := by
  rw [← List.concat_eq_append]
  exact List.Nodup.concat notOnPath distinct

theorem bounded_longer {path : List Nat} {child : Nat} (bounded : ∀ index ∈ path, index < size)
    (inside : child < size) : ∀ index ∈ path ++ [child], index < size :=
  List.forall_mem_append.2 ⟨bounded, List.forall_mem_singleton.2 inside⟩

/-- No path from any of the models through their children goes on for ever. -/
def Settled (children : Nat → List Nat) (finished : List Nat) : Prop :=
  ∀ index ∈ finished, Acc (fun child parent => child ∈ children parent) index

theorem settled_of_walk (bounded : ∀ parent, ∀ child ∈ children parent, child < size)
    (fuel : Nat) : ∀ path finished node result, path.Nodup → (∀ index ∈ path, index < size) →
      size + 1 ≤ fuel + path.length → walk children fuel path finished node = .ok result →
        Settled children finished →
          Settled children result ∧
            Acc (fun child parent => child ∈ children parent) node := by
  induction fuel with
  | zero =>
    -- Without fuel the path would hold more models than there are.
    intro path finished node result distinct within enough
    have short := length_le_of_bounded distinct within
    omega
  | succ fuel ih =>
    intro path finished node result distinct within enough walked known
    obtain ⟨behind, folded, same⟩ := Except.bind_eq_ok.1 walked
    -- A child on the path ends the walk, and one that was left behind is settled already.
    have each : ∀ child ∈ children node, ∀ finished next,
        (if child ∈ path then .error (path ++ [child])
          else if child ∈ finished then .ok finished
          else walk children fuel (path ++ [child]) finished child) = .ok next →
        Settled children finished → Settled children next ∧
          Acc (fun child parent => child ∈ children parent) child := by
      intro child isChild finished next stepped known
      split at stepped
      next => cases stepped
      next notOnPath =>
        split at stepped
        next found =>
          cases stepped
          exact ⟨known, known child found⟩
        next =>
          refine ih (path ++ [child]) finished child next (nodup_longer distinct notOnPath)
            (bounded_longer within (bounded node child isChild)) ?_ stepped known
          rw [List.length_append, List.length_singleton]
          omega
    obtain ⟨settled, below⟩ := good_of_foldlM (children node) each finished behind folded known
    cases same
    -- All children being settled is what accessibility of the node takes.
    have settledNode : Acc (fun child parent => child ∈ children parent) node :=
      Acc.intro node below
    exact ⟨List.forall_mem_cons.2 ⟨settledNode, settled⟩, settledNode⟩

end

variable {models : List Model}

def IsBase (models : List Model) (base index : Nat) : Prop :=
  base ∈ (basesAt models index).map Base.index

theorem lt_length_of_isBase {base index : Nat} (isBase : IsBase models base index) :
    base < models.length := by
  obtain ⟨found, member, rfl⟩ := List.mem_map.1 isBase
  unfold basesAt at member
  split at member
  next model _ =>
    obtain ⟨name, _, resolved⟩ := List.mem_filterMap.1 member
    obtain ⟨place, _, resolved⟩ := Option.bind_eq_some_iff.1 resolved
    obtain ⟨target, known, same⟩ := Option.bind_eq_some_iff.1 resolved
    cases same
    exact (List.getElem?_eq_some_iff.1 known).1
  next => cases member

theorem acc_of_cycleFrom? {root : Nat} (known : root < models.length)
    (noCycle : cycleFrom? models root = none) : Acc (IsBase models) root := by
  unfold cycleFrom? at noCycle
  simp only at noCycle
  split at noCycle
  next => cases noCycle
  next finished walked =>
    exact (settled_of_walk (fun _ _ => lt_length_of_isBase) (models.length + 1) [root] [] root
      finished (by simp) (List.forall_mem_singleton.2 known) (by simp) walked nofun).2

theorem wellFounded_of_clean (clean : Clean (checkCycles models)) :
    WellFounded (IsBase models) := by
  refine ⟨fun root => ?_⟩
  -- Each model is checked by a walk of its own. A place without a model has no bases.
  by_cases known : root < models.length
  next =>
    refine acc_of_cycleFrom? known ?_
    have place : (models[root], root) ∈ models.zipIdx :=
      List.mem_zipIdx_iff_getElem?.2 (List.getElem?_eq_getElem known)
    have here := Clean.flatMap.1 clean _ place
    simp only at here
    split at here
    next => simp at here
    next none => exact none
  next =>
    refine Acc.intro root fun base isBase => ?_
    have outside : models[root]? = none := List.getElem?_eq_none (Nat.le_of_not_lt known)
    simp [IsBase, basesAt, outside] at isBase

end Schemata.Hierarchy
