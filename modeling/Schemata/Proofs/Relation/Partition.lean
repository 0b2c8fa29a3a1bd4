import Mathlib.Data.List.Basic
import Mathlib.Data.List.Nodup
import Schemata.Library
import Schemata.Proofs.Relation.Edges

set_option autoImplicit false

namespace Schemata

namespace Relation

theorem nodup_eraseDups {α : Type} [BEq α] [LawfulBEq α] :
    ∀ values : List α, values.eraseDups.Nodup
  | [] => List.Pairwise.nil
  | value :: rest => by
    have : (rest.filter fun other => !other == value).length < rest.length + 1 :=
      Nat.lt_succ_of_le (List.length_filter_le _ _)
    rw [List.eraseDups_cons, List.nodup_cons]
    refine ⟨fun again => ?_, nodup_eraseDups _⟩
    simp at again
termination_by values => values.length

theorem length_filter_le_flatMap {α β : Type} (next : α → List β) (values : List α) :
    (values.filter fun value => !(next value).isEmpty).length ≤ (values.flatMap next).length := by
  induction values with
  | nil => exact Nat.le_refl 0
  | cons value rest ih =>
    rw [List.flatMap_cons, List.length_append, List.filter_cons]
    cases next value with
    | nil => simpa using ih
    | cons first others =>
      simp only [List.isEmpty_cons, Bool.not_false, if_true, List.length_cons]
      omega

def groupKeys (all : List Candidate) : List Candidate.Key :=
  (all.map Candidate.groupKey).eraseDups

def groupOf (all : List Candidate) (key : Candidate.Key) : List Candidate :=
  all.filter fun candidate => candidate.groupKey == key

def edgeOf (schema : Schema) (all : List Candidate) (key : Candidate.Key) :
    Checked (Option RelationEdge) :=
  groupEdge schema key (groupOf all key)

variable {schema : Schema} {all : List Candidate} {key : Candidate.Key} {edge : RelationEdge}
  {candidate first second : Candidate}

theorem mem_groupKeys : key ∈ groupKeys all ↔ ∃ candidate ∈ all, candidate.groupKey = key := by
  rw [groupKeys, List.mem_eraseDups, List.mem_map]

theorem mem_groupOf : candidate ∈ groupOf all key ↔ candidate ∈ all ∧ candidate.groupKey = key := by
  rw [groupOf, List.mem_filter, beq_iff_eq]

theorem value_groupEdges (keys : List Candidate.Key) :
    (groupEdges schema all keys).value =
      keys.filterMap fun key => (edgeOf schema all key).value := by
  induction keys with
  | nil => rfl
  | cons key rest ih =>
    rw [groupEdges, Checked.value_bind, Checked.value_bind, ih, Checked.value_pure,
      List.filterMap_cons, edgeOf, groupOf]
    cases (groupEdge schema key (all.filter fun candidate => candidate.groupKey == key)).value <;>
      rfl

theorem diagnostics_groupEdges (keys : List Candidate.Key) :
    (groupEdges schema all keys).diagnostics =
      keys.flatMap fun key => (edgeOf schema all key).diagnostics := by
  induction keys with
  | nil => rfl
  | cons key rest ih =>
    rw [groupEdges, Checked.diagnostics_bind, Checked.diagnostics_bind, ih,
      Checked.diagnostics_pure, List.append_nil, List.flatMap_cons, edgeOf, groupOf]

structure MadeOfGroup (schema : Schema) (all : List Candidate) (key : Candidate.Key)
    (edge : RelationEdge) (left right : Candidate) : Prop where
  group : (groupOf all key).Perm [left, right]
  opposite : Candidate.Opposite key left right
  madeOf : MadeOf schema edge left right

theorem pair_of_edgeOf (stated : ∀ candidate ∈ all, candidate.key.StatedBy schema candidate.field)
    (made : (edgeOf schema all key).value = some edge) :
    ∃ first second, MadeOfGroup schema all key edge first second ∧
      edgeOf schema all key = pairEdge schema first second := by
  rcases pair_of_groupEdge (fun member listed => (mem_groupOf.1 listed).2) made with
    ⟨first, second, group, opposite, paired⟩
  have isMember {member : Candidate} (listed : member ∈ [first, second]) : member ∈ all :=
    (mem_groupOf.1 (group.mem_iff.2 listed)).1
  rw [edgeOf, paired] at made
  refine ⟨first, second, ⟨group, opposite, madeOf_of_pairEdge ?_ ?_ made⟩, paired⟩
  · exact stated first (isMember (by simp))
  · exact stated second (isMember (by simp))

theorem madeOfGroup_of_edgeOf
    (stated : ∀ candidate ∈ all, candidate.key.StatedBy schema candidate.field)
    (made : (edgeOf schema all key).value = some edge) :
    ∃ first second, MadeOfGroup schema all key edge first second := by
  rcases pair_of_edgeOf stated made with ⟨first, second, group, _⟩
  exact ⟨first, second, group⟩

namespace MadeOfGroup

variable (made : MadeOfGroup schema all key edge first second)
include made

theorem mem_iff : candidate ∈ all ∧ candidate.groupKey = key ↔
    candidate = first ∨ candidate = second := by
  rw [← mem_groupOf, made.group.mem_iff]
  simp

theorem group_eq : edge.group = key := by
  have grouped := made.opposite.grouped
  rw [RelationEdge.group, made.madeOf.first, made.madeOf.second, made.madeOf.name]
  unfold Candidate.toEnd
  rw [← made.opposite.target]
  exact grouped

theorem place_ne (distinct : (all.map Candidate.place).Nodup) : first.place ≠ second.place := by
  have different : ((groupOf all key).map Candidate.place).Nodup :=
    distinct.sublist (List.filter_sublist.map _)
  rw [(made.group.map _).nodup_iff] at different
  simpa using different

theorem involves_iff (distinct : (all.map Candidate.place).Nodup) (listed : candidate ∈ all) :
    edge.involves candidate.model.name.name candidate.field.name.name = true ↔
      candidate.groupKey = key := by
  have ends : edge.involves candidate.model.name.name candidate.field.name.name = true ↔
      first.place = candidate.place ∨ second.place = candidate.place := by
    simp [RelationEdge.involves, RelationEdge.ends, made.madeOf.first, made.madeOf.second,
      Candidate.toEnd, Candidate.place]
  have same := List.inj_on_of_nodup_map distinct
  have isFirst := (made.mem_iff.2 (.inl rfl)).1
  have isSecond := (made.mem_iff.2 (.inr rfl)).1
  rw [ends]
  constructor
  · rintro (here | here)
    · exact same isFirst listed here ▸ made.opposite.grouped
    · exact same isSecond listed here ▸ made.opposite.oppositeGrouped
  · intro grouped
    rcases made.mem_iff.1 ⟨listed, grouped⟩ with rfl | rfl
    · exact .inl rfl
    · exact .inr rfl

end MadeOfGroup

theorem countP_involves (distinct : (all.map Candidate.place).Nodup)
    (stated : ∀ candidate ∈ all, candidate.key.StatedBy schema candidate.field)
    (listed : candidate ∈ all) :
    (groupEdges schema all (groupKeys all)).value.countP
        (·.involves candidate.model.name.name candidate.field.name.name) =
      if (edgeOf schema all candidate.groupKey).value.isSome then 1 else 0 := by
  rw [value_groupEdges, List.countP_filterMap]
  -- An edge involves the candidate just if it was made of the group of the candidate.
  have involved (key : Candidate.Key) (edge : RelationEdge)
      (made : (edgeOf schema all key).value = some edge) :
      edge.involves candidate.model.name.name candidate.field.name.name = true ↔
        candidate.groupKey = key := by
    rcases madeOfGroup_of_edgeOf stated made with ⟨first, second, made⟩
    exact made.involves_iff distinct listed
  split
  next found =>
    have once : (groupKeys all).count candidate.groupKey = 1 :=
      List.count_eq_one_of_mem (nodup_eraseDups _) (mem_groupKeys.2 ⟨candidate, listed, rfl⟩)
    rw [← once, List.count]
    refine List.countP_congr fun key _ => ?_
    cases made : (edgeOf schema all key).value with
    | none =>
      have other : key ≠ candidate.groupKey := by
        rintro rfl
        rw [made] at found
        cases found
      simp [other]
    | some edge =>
      rw [Option.map_some, Option.getD_some, involved key edge made, beq_iff_eq]
      exact eq_comm
  next missing =>
    refine List.countP_eq_zero.2 fun key _ hit => missing ?_
    cases made : (edgeOf schema all key).value with
    | none => simp [made] at hit
    | some edge =>
      rw [made, Option.map_some, Option.getD_some, involved key edge made] at hit
      rw [hit, made]
      rfl

theorem length_le_reported {groups : List Candidate.Key} (distinct : groups.Nodup)
    (failed : ∀ key ∈ groups, key ∈ groupKeys all ∧ (edgeOf schema all key).value = none) :
    groups.length ≤ all.countP (·.key.isIncomplete) +
      (groupEdges schema all (groupKeys all)).diagnostics.length := by
  have covered : groups ⊆ (all.filter (·.key.isIncomplete)).map Candidate.groupKey ++
      (groupKeys all).filter fun key => !(edgeOf schema all key).diagnostics.isEmpty := by
    intro key member
    rcases failed key member with ⟨known, none⟩
    rw [List.mem_append]
    by_cases complete : ∀ member ∈ groupOf all key, member.key.isIncomplete = false
    next =>
      rcases mem_groupKeys.1 known with ⟨candidate, listed, grouped⟩
      have some := List.ne_nil_of_mem (mem_groupOf.2 ⟨listed, grouped⟩)
      have reported := explained_groupEdge some complete none
      exact .inr (List.mem_filter.2 ⟨known, by simpa [edgeOf] using reported⟩)
    next =>
      push Not at complete
      rcases complete with ⟨candidate, member, incomplete⟩
      rcases mem_groupOf.1 member with ⟨listed, grouped⟩
      refine .inl (List.mem_map.2 ⟨candidate, List.mem_filter.2 ⟨listed, ?_⟩, grouped⟩)
      simpa using incomplete
  calc groups.length
      ≤ _ := distinct.length_le_of_subset covered
    _ = all.countP (·.key.isIncomplete) + ((groupKeys all).filter fun key =>
          !(edgeOf schema all key).diagnostics.isEmpty).length := by
        rw [List.length_append, List.length_map, List.countP_eq_length_filter]
    _ ≤ _ := by
        rw [diagnostics_groupEdges]
        exact Nat.add_le_add_left (length_filter_le_flatMap _ _) _

theorem mem_relations : edge ∈ schema.relations.value ↔
    ∃ key ∈ groupKeys schema.candidates,
      (edgeOf schema schema.candidates key).value = some edge := by
  have value : schema.relations.value =
      (groupEdges schema schema.candidates (groupKeys schema.candidates)).value := rfl
  rw [value, value_groupEdges, List.mem_filterMap]

theorem clean_edgeOf (clean : Clean schema.relations.diagnostics)
    (known : key ∈ groupKeys schema.candidates) :
    Clean (edgeOf schema schema.candidates key).diagnostics := by
  rw [Schema.relations, Checked.diagnostics_bind, Clean.append, diagnostics_groupEdges,
    Clean.flatMap] at clean
  exact clean.2 key known

theorem madeOfGroup_of_mem_relations (listed : edge ∈ schema.relations.value) :
    ∃ key first second, MadeOfGroup schema schema.candidates key edge first second := by
  rcases mem_relations.1 listed with ⟨key, _, made⟩
  exact ⟨key, madeOfGroup_of_edgeOf (fun _ => Candidate.statedBy_of_mem) made⟩

variable {model target : Model} {field : Field}

theorem countP_relations (distinct : (schema.candidates.map Candidate.place).Nodup)
    (isField : schema.IsRelationField model field target) :
    schema.relations.value.countP (·.involves model.name.name field.name.name) =
      if (edgeOf schema schema.candidates (schema.relationGroup model field target)).value.isSome
      then 1 else 0 := by
  rcases isField.exists_candidate with ⟨candidate, listed, rfl, rfl, rfl⟩
  rw [← Candidate.groupKey_of_mem listed]
  exact countP_involves distinct (fun _ => Candidate.statedBy_of_mem) listed

theorem mem_groupKeys_of_isRelationField (isField : schema.IsRelationField model field target) :
    schema.relationGroup model field target ∈ groupKeys schema.candidates := by
  rcases isField.exists_candidate with ⟨candidate, listed, rfl, rfl, rfl⟩
  exact mem_groupKeys.2 ⟨candidate, listed, Candidate.groupKey_of_mem listed⟩

theorem edgeOf_eq_none_of_missing (known : key ∈ groupKeys schema.candidates)
    (missing : ∀ edge ∈ schema.relations.value, edge.group ≠ key) :
    (edgeOf schema schema.candidates key).value = none := by
  refine Option.eq_none_iff_forall_ne_some.2 fun edge made => ?_
  rcases madeOfGroup_of_edgeOf (fun _ => Candidate.statedBy_of_mem) made with ⟨_, _, pair⟩
  exact missing edge (mem_relations.2 ⟨key, known, made⟩) pair.group_eq

theorem length_le_diagnostics {groups : List Candidate.Key} (distinct : groups.Nodup)
    (failed : ∀ key ∈ groups, key ∈ groupKeys schema.candidates ∧
      (edgeOf schema schema.candidates key).value = none) :
    groups.length ≤ schema.relations.diagnostics.length := by
  rw [Schema.relations, Checked.diagnostics_bind, List.length_append, diagnostics_candidates]
  exact length_le_reported distinct failed

variable {document : Document}

theorem nodup_place_ofDocument (unique : UniqueNames document.models) :
    ((Schema.ofDocument document).candidates.map Candidate.place).Nodup := by
  refine nodup_place_candidates ?_
  rw [show (Schema.ofDocument document).hierarchy.models = document.models from
    Hierarchy.models_ofModels _]
  exact unique

theorem joins_of_madeOfGroup (unique : UniqueNames document.models)
    (made : MadeOfGroup (.ofDocument document) (Schema.ofDocument document).candidates key edge
      first second) :
    edge.Joins (.ofDocument document) first.model second.model first.field second.field := by
  have models : (Schema.ofDocument document).hierarchy.models = document.models :=
    Hierarchy.models_ofModels _
  have isFirst := (made.mem_iff.2 (.inl rfl)).1
  have isSecond := (made.mem_iff.2 (.inr rfl)).1
  have field := Candidate.isRelationField_of_mem isFirst
  have opposite := Candidate.isRelationField_of_mem isSecond
  -- A model is known by its name.
  have same := List.inj_on_of_nodup_map unique
  have target : first.target = second.model :=
    same (SymbolTable.mem_models_of_resolve field.type) (models ▸ opposite.member)
      made.opposite.target
  have oppositeTarget : second.target = first.model :=
    same (SymbolTable.mem_models_of_resolve opposite.type) (models ▸ field.member)
      made.opposite.oppositeTarget
  have shared : first.name = second.name :=
    (Candidate.sides_of_groupKey made.opposite.grouped).1.trans
      (Candidate.sides_of_groupKey made.opposite.oppositeGrouped).1.symm
  refine ⟨target ▸ field, oppositeTarget ▸ opposite, ?_, made.madeOf.first, made.madeOf.second,
    ?_, ?_, made.madeOf.keyed⟩
  · exact made.place_ne (nodup_place_ofDocument unique)
  · rw [made.madeOf.name, Candidate.name_of_mem isFirst]
  · rw [made.madeOf.name, shared, Candidate.name_of_mem isSecond]

end Relation

/-- The edges join the relation fields in pairs, but for as many groups as are reported. -/
structure Schema.PairedBy (schema : Schema) (edges : List RelationEdge) (reported : Nat) :
    Prop where
  once : ∀ model field target, schema.IsRelationField model field target →
    edges.countP (·.involves model.name.name field.name.name) ≤ 1
  /-- There are no more groups without an edge than reports. -/
  groups : ∀ groups : List Candidate.Key, groups.Nodup →
    (∀ group ∈ groups,
      (∃ model field target, schema.IsRelationField model field target ∧
        schema.relationGroup model field target = group) ∧ ∀ edge ∈ edges, edge.group ≠ group) →
      groups.length ≤ reported
  all : reported = 0 → ∀ model field target, schema.IsRelationField model field target →
    edges.countP (·.involves model.name.name field.name.name) = 1
  joins : ∀ edge ∈ edges, ∃ own other field opposite, edge.Joins schema own other field opposite

/-- In a document without two declarations of one name, relations pair up the relation fields. -/
theorem Schema.pairedBy_relations {document : Document}
    (distinct : (document.declarations.map fun declaration => declaration.name.name).Nodup) :
    (Schema.ofDocument document).PairedBy (Schema.ofDocument document).relations.value
      (Schema.ofDocument document).relations.diagnostics.length := by
  have unique := document.uniqueNames_of_nodup distinct
  have places := Relation.nodup_place_ofDocument unique
  constructor
  next =>
    intro model field target isField
    rw [Relation.countP_relations places isField]
    split <;> decide
  next =>
    intro groups different failed
    refine Relation.length_le_diagnostics different fun group member => ?_
    rcases failed group member with ⟨⟨model, field, target, isField, rfl⟩, missing⟩
    have known := Relation.mem_groupKeys_of_isRelationField isField
    exact ⟨known, Relation.edgeOf_eq_none_of_missing known missing⟩
  next =>
    intro silent model field target isField
    rw [Relation.countP_relations places isField, if_pos]
    -- A group without an edge would be one group more than there are reports.
    by_contra missing
    have known := Relation.mem_groupKeys_of_isRelationField isField
    have reported := Relation.length_le_diagnostics (List.nodup_singleton _)
      (List.forall_mem_singleton.2 ⟨known, Option.not_isSome_iff_eq_none.1 missing⟩)
    rw [silent] at reported
    cases reported
  next =>
    intro edge listed
    rcases Relation.madeOfGroup_of_mem_relations listed with ⟨key, first, second, made⟩
    exact ⟨_, _, _, _, Relation.joins_of_madeOfGroup unique made⟩

namespace Club

open Library

def field (name : String) (type : TypeRef) (arguments : List Argument) : Field :=
  ⟨ident name, type,
    if arguments.isEmpty then [] else [⟨ident "@relation", arguments, Span.zero⟩], Span.zero⟩

def relationName (name : String) : Argument :=
  .positional (.literal (.string name) Span.zero)

def fieldList (param name : String) : Argument :=
  .named (ident param) (.list [.reference (ident name) Span.zero] Span.zero)

def person : Model :=
  ⟨ident "Person", true, [], [field "clubs" (list (named "Club")) []], [], Span.zero⟩

/-- Members have a mentor, and one of them owns each club. -/
def member : Model :=
  ⟨ident "Member", false, [ident "Person"],
    [field "id" int [], field "mentorId" int [],
      field "mentor" (named "Member")
        [relationName "mentors", fieldList "fields" "mentorId", fieldList "references" "id"],
      field "students" (list (named "Member")) [relationName "mentors"],
      field "owned" (list (named "Club")) [relationName "owner"]], [], Span.zero⟩

def guest : Model := ⟨ident "Guest", false, [ident "Person"], [], [], Span.zero⟩

/-- The key of `owner` lacks the fields that it refers to. -/
def club : Model :=
  ⟨ident "Club", false, [],
    [field "members" (list (named "Member")) [], field "guests" (list (named "Guest")) [],
      field "ownerId" int [],
      field "owner" (named "Member") [relationName "owner", fieldList "fields" "ownerId"]],
    [], Span.zero⟩

def document : Document := ⟨[.model person, .model member, .model guest, .model club]⟩

def schema : Schema := Schema.ofDocument document

end Club

/-- Three relations are found among four groups, and the fourth one is reported. -/
theorem Club.pairedBy_schema :
    (document.declarations.map fun declaration => declaration.name.name).Nodup ∧
      schema.relations.value.map RelationEdge.group =
        [⟨"Club", "Member", none⟩, ⟨"Member", "Member", some "mentors"⟩,
          ⟨"Club", "Guest", none⟩] ∧
      schema.relations.diagnostics.length = 1 ∧ schema.PairedBy schema.relations.value 1 := by
  have distinct : (document.declarations.map fun declaration => declaration.name.name).Nodup := by
    decide
  have reported : schema.relations.diagnostics.length = 1 := by decide +kernel
  have paired := Schema.pairedBy_relations distinct
  exact ⟨distinct, by decide +kernel, reported, reported ▸ paired⟩

end Schemata
