import Mathlib.Data.List.Permutation
import Schemata.Proofs.Order.Groups
import Schemata.Proofs.Relation.ForeignKeys

set_option autoImplicit false

namespace Schemata

namespace RelationEdge

variable (edge : RelationEdge)

def turn : RelationEdge :=
  { edge with
    first := edge.second, second := edge.first, owner := edge.owner.map Side.opposite }

end RelationEdge

namespace Relation

variable {schema : Schema}

theorem ownedEdge_turn {first second : Candidate} (name : first.name = second.name) (side : Side)
    (fields references : List Ident) :
    ownedEdge schema second first side.opposite fields references =
      (ownedEdge schema first second side fields references).convert
        (Option.map RelationEdge.turn) := by
  -- Whichever candidate comes first, the same one owns the key.
  have owner : (if side.opposite = .first then second else first) =
      if side = .first then first else second := by
    cases side <;> rfl
  have other : (if side.opposite = .first then first else second) =
      if side = .first then second else first := by
    cases side <;> rfl
  rw [ownedEdge, ownedEdge, owner, other, name]
  generalize (if side = .first then first else second) = owner
  generalize (if side = .first then second else first) = other
  cases owner.field.type.isList with
  | true => rfl
  | false =>
    refine Checked.convert_bind id rfl fun valid => ?_
    cases valid <;> cases other.field.type.isList
    case true.false => exact Checked.convert_bind id rfl fun _ => rfl
    all_goals rfl

theorem keylessEdge_turn {first second : Candidate} (name : first.name = second.name)
    (clean : Clean (keylessEdge first second).diagnostics) :
    keylessEdge second first = (keylessEdge first second).convert (Option.map RelationEdge.turn) := by
  unfold keylessEdge at clean ⊢
  split at clean
  next lists =>
    rw [if_pos lists, if_pos ((Bool.and_comm _ _).trans lists), name]
    rfl
  next => simp [reject] at clean

theorem pairEdge_turn {first second : Candidate} (name : first.name = second.name)
    (clean : Clean (pairEdge schema first second).diagnostics) :
    pairEdge schema second first =
      (pairEdge schema first second).convert (Option.map RelationEdge.turn) := by
  unfold pairEdge at clean ⊢
  cases firstKey : first.key <;> cases secondKey : second.key <;> rw [firstKey, secondKey] at clean
  case absent.absent => exact keylessEdge_turn name clean
  case complete.complete => simp [reject] at clean
  case absent.complete fields references => exact ownedEdge_turn name .second fields references
  case complete.absent fields references => exact ownedEdge_turn name .first fields references
  all_goals rfl

variable {order : Model → List Ident} {other : Schema} {all others : List Candidate}
  {key : Candidate.Key}

theorem groupOf_perm (perm : others.Perm (all.map (Candidate.reorder order))) :
    (groupOf others key).Perm ((groupOf all key).map (Candidate.reorder order)) := by
  have grouped := perm.filter fun candidate => candidate.groupKey == key
  rwa [List.filter_map] at grouped

/-- The fields of a group of one model that stand the other way round in another order. -/
structure Turned (order : Model → List Ident) (all others : List Candidate) (key : Candidate.Key)
    (first second : Candidate) : Prop where
  own : key.low = key.high
  here : groupOf all key = [first, second]
  there : groupOf others key = [second.reorder order, first.reorder order]

namespace Turned

variable {first second : Candidate} (turned : Turned order all others key first second)
include turned

theorem isFirst : first ∈ all ∧ first.groupKey = key :=
  mem_groupOf.1 (turned.here.symm ▸ List.mem_cons_self)

theorem isSecond : second ∈ all ∧ second.groupKey = key :=
  mem_groupOf.1 (turned.here.symm ▸ List.mem_cons_of_mem first (List.mem_singleton_self second))

theorem firstName : first.model.name.name = key.low := by
  rcases (Candidate.sides_of_groupKey turned.isFirst.2).2 with side | side
  · exact side.1
  · exact side.1.trans turned.own.symm

theorem secondName : second.model.name.name = first.model.name.name := by
  rw [turned.firstName]
  rcases (Candidate.sides_of_groupKey turned.isSecond.2).2 with side | side
  · exact side.1
  · exact side.1.trans turned.own.symm

theorem edgeOf_eq : edgeOf schema all key = pairEdge schema first second := by
  rw [edgeOf, groupEdge, if_pos turned.own, turned.here]
  rfl

theorem field_ne (distinct : (all.map Candidate.place).Nodup) :
    first.field.name.name ≠ second.field.name.name := by
  have pair : ([first, second].map Candidate.place).Nodup := by
    rw [← turned.here]
    exact distinct.sublist (List.filter_sublist.map _)
  simpa [Candidate.place, turned.secondName] using pair

end Turned

def groupNames (key : Candidate.Key) (checks : List (Checked (Option Candidate))) : List String :=
  ((checks.filterMap Checked.value).filter (·.groupKey == key)).map (·.field.name.name)

theorem groupNames_reorder (key : Candidate.Key) (checks : List (Checked (Option Candidate))) :
    groupNames key (checks.map (Checked.convert (Option.map (Candidate.reorder order)))) =
      groupNames key checks := by
  have values : (checks.map (Checked.convert (Option.map (Candidate.reorder order)))).filterMap
      Checked.value = (checks.filterMap Checked.value).map (Candidate.reorder order) := by
    rw [List.filterMap_map, List.map_filterMap]
    rfl
  rw [groupNames, values, List.filter_map, List.map_map]
  rfl

theorem exists_field_of_groupNames {schema : Schema} {model : Model} {key : Candidate.Key}
    {visibles : List VisibleField} {name : String}
    (listed : name ∈ groupNames key (visibles.map (candidate? schema model))) :
    ∃ visible ∈ visibles, visible.name = name := by
  obtain ⟨candidate, grouped, rfl⟩ := List.mem_map.1 listed
  obtain ⟨check, isCheck, made⟩ := List.mem_filterMap.1 (List.mem_filter.1 grouped).1
  obtain ⟨visible, member, rfl⟩ := List.mem_map.1 isCheck
  have field := (describes_of_candidate? made).field
  exact ⟨visible, member, congrArg (fun field => field.name.name) field.symm⟩

variable (reordered : Schema.Reordered order schema other)
include reordered

theorem selfEdge_of_perm {members members' : List Candidate}
    (perm : members'.Perm (members.map (Candidate.reorder order)))
    (names : ∀ first ∈ members, ∀ second ∈ members, first.name = second.name)
    (clean : Clean (selfEdge schema members).diagnostics) :
    selfEdge other members' = selfEdge schema members ∨
      ∃ first second, members = [first, second] ∧
        members' = [second.reorder order, first.reorder order] ∧
        selfEdge other members' =
          (selfEdge schema members).convert (Option.map RelationEdge.turn) := by
  match members with
  | [] =>
    cases perm.eq_nil
    exact .inl rfl
  | [single] =>
    rw [List.perm_singleton.1 perm]
    exact .inl rfl
  | [first, second] =>
    rcases List.perm_pair.1 perm with same | turned
    · rw [same]
      exact .inl (pairEdge_reorder reordered first second)
    · refine .inr ⟨first, second, rfl, turned, ?_⟩
      rw [turned]
      have name := names first (by simp) second (by simp)
      exact (pairEdge_reorder reordered second first).trans (pairEdge_turn name clean)
  | first :: second :: third :: rest => simp [selfEdge, checkAmbiguous] at clean

theorem crossEdge_of_perm {left right left' right' : List Candidate}
    (leftPerm : left'.Perm (left.map (Candidate.reorder order)))
    (rightPerm : right'.Perm (right.map (Candidate.reorder order)))
    (clean : Clean (crossEdge schema left right).diagnostics) :
    crossEdge other left' right' = crossEdge schema left right := by
  have same {side side' : List Candidate} (single : side.length ≤ 1)
      (perm : side'.Perm (side.map (Candidate.reorder order))) :
      side' = side.map (Candidate.reorder order) := by
    rcases side with _ | ⟨only, _ | ⟨another, rest⟩⟩
    · exact perm.eq_nil
    · exact List.perm_singleton.1 perm
    · simp at single
  have single : left.length ≤ 1 ∧ right.length ≤ 1 := by
    rcases left with _ | ⟨first, _ | ⟨another, rest⟩⟩ <;>
      rcases right with _ | ⟨second, _ | ⟨another', rest'⟩⟩ <;>
        simp [crossEdge, checkAmbiguous] at clean ⊢
  rw [same single.1 leftPerm, same single.2 rightPerm, crossEdge_reorder reordered]

theorem edgeOf_of_perm (perm : others.Perm (all.map (Candidate.reorder order)))
    (clean : Clean (edgeOf schema all key).diagnostics) :
    edgeOf other others key = edgeOf schema all key ∨
      ∃ first second, Turned order all others key first second ∧
        edgeOf other others key =
          (edgeOf schema all key).convert (Option.map RelationEdge.turn) := by
  have group : (groupOf others key).Perm ((groupOf all key).map (Candidate.reorder order)) :=
    groupOf_perm perm
  unfold edgeOf groupEdge at clean ⊢
  split
  next same =>
    rw [if_pos same] at clean
    have names : ∀ first ∈ groupOf all key, ∀ second ∈ groupOf all key,
        first.name = second.name := by
      intro first isFirst second isSecond
      rw [(Candidate.sides_of_groupKey (mem_groupOf.1 isFirst).2).1,
        (Candidate.sides_of_groupKey (mem_groupOf.1 isSecond).2).1]
    rcases selfEdge_of_perm reordered group names clean with equal | turned
    · exact .inl equal
    · obtain ⟨first, second, here, there, equal⟩ := turned
      exact .inr ⟨first, second, ⟨same, here, there⟩, equal⟩
  next different =>
    rw [if_neg different] at clean
    have parts (test : Candidate → Bool)
        (same : ∀ candidate, test (candidate.reorder order) = test candidate) :
        ((groupOf others key).filter test).Perm
          (((groupOf all key).filter test).map (Candidate.reorder order)) := by
      have part := group.filter test
      rwa [List.filter_map, show test ∘ Candidate.reorder order = test from funext same] at part
    exact .inl (crossEdge_of_perm reordered (parts _ fun _ => rfl) (parts _ fun _ => rfl) clean)

end Relation

end Schemata
