import Schemata.Proofs.Order.Pairs
import Schemata.Proofs.Typing.Issues

set_option autoImplicit false

namespace Schemata.Relation

variable {schema : Schema}

def ownCandidates (schema : Schema) (model : Model) : Checked (List Candidate) :=
  if model.isAbstract then pure [] else candidatesOf schema model (schema.fields model)

theorem candidates_cons (model : Model) (rest : List Model) :
    (candidates schema (model :: rest)).value =
        (ownCandidates schema model).value ++ (candidates schema rest).value ∧
      (candidates schema (model :: rest)).diagnostics =
        (ownCandidates schema model).diagnostics ++ (candidates schema rest).diagnostics := by
  unfold ownCandidates
  cases isAbstract : model.isAbstract with
  | true => exact candidates_of_abstract isAbstract
  | false => exact candidates_of_concrete isAbstract

theorem value_candidates (models : List Model) : (candidates schema models).value =
    models.flatMap fun model => (ownCandidates schema model).value := by
  induction models with
  | nil => rfl
  | cons model rest ih => rw [(candidates_cons model rest).1, List.flatMap_cons, ih]

theorem reports_candidates (models : List Model) : (candidates schema models).diagnostics =
    models.flatMap fun model => (ownCandidates schema model).diagnostics := by
  induction models with
  | nil => rfl
  | cons model rest ih => rw [(candidates_cons model rest).2, List.flatMap_cons, ih]

theorem value_ownCandidates {model : Model} (concrete : model.isAbstract = false) :
    (ownCandidates schema model).value =
      ((schema.fields model).map (candidate? schema model)).filterMap Checked.value := by
  rw [ownCandidates, if_neg (by simp [concrete]), value_candidatesOf, List.filterMap_map]
  rfl

theorem reports_ownCandidates {model : Model} (concrete : model.isAbstract = false) :
    (ownCandidates schema model).diagnostics =
      ((schema.fields model).map (candidate? schema model)).flatMap Checked.diagnostics := by
  rw [ownCandidates, if_neg (by simp [concrete])]
  induction schema.fields model with
  | nil => rfl
  | cons visible rest ih =>
    rw [candidatesOf, Checked.diagnostics_bind, Checked.diagnostics_bind, ih,
      Checked.diagnostics_pure, List.append_nil, List.map_cons, List.flatMap_cons]

theorem model_of_mem_own {model : Model} {candidate : Candidate}
    (found : candidate ∈ (ownCandidates schema model).value) : candidate.model = model := by
  cases isAbstract : model.isAbstract with
  | true => simp [ownCandidates, isAbstract] at found
  | false =>
    rw [value_ownCandidates isAbstract, List.filterMap_map, List.mem_filterMap] at found
    obtain ⟨visible, _, made⟩ := found
    exact (describes_of_candidate? made).model

def candidatesNamed (all : List Candidate) (name : String) : List Candidate :=
  all.filter fun candidate => candidate.model.name.name == name

theorem candidatesNamed_candidates (models : List Model) (name : String) :
    candidatesNamed (candidates schema models).value name =
      (candidates schema (models.filter (·.name.name == name))).value := by
  rw [value_candidates, value_candidates, candidatesNamed, List.filter_flatMap]
  induction models with
  | nil => rfl
  | cons model rest ih =>
    have own : (ownCandidates schema model).value.filter
        (fun candidate => candidate.model.name.name == name) =
          if model.name.name == name then (ownCandidates schema model).value else [] := by
      split
      next named =>
        refine List.filter_eq_self.2 fun candidate found => ?_
        rw [model_of_mem_own found, named]
      next other =>
        refine List.filter_eq_nil_iff.2 fun candidate found => ?_
        rwa [model_of_mem_own found]
    rw [List.flatMap_cons, ih, own, List.filter_cons]
    split
    · rw [List.flatMap_cons]
    · rw [List.nil_append]

theorem filter_name {models : List Model} (unique : UniqueNames models) {model : Model}
    (member : model ∈ models) : models.filter (·.name.name == model.name.name) = [model] := by
  have once : (models.filter (·.name.name == model.name.name)).Nodup :=
    List.Nodup.filter _ (List.Nodup.of_map _ unique)
  refine List.perm_singleton.1
    ((List.perm_ext_iff_of_nodup once (List.nodup_singleton model)).2 fun other => ?_)
  rw [List.mem_filter, List.mem_singleton, beq_iff_eq]
  constructor
  · rintro ⟨memberToo, named⟩
    exact List.inj_on_of_nodup_map unique memberToo member named
  · rintro rfl
    exact ⟨member, rfl⟩

theorem candidatesNamed_perm {models others : List Model} (unique : UniqueNames models)
    (perm : others.Perm models) (name : String) :
    candidatesNamed (candidates schema others).value name =
      candidatesNamed (candidates schema models).value name := by
  rw [candidatesNamed_candidates, candidatesNamed_candidates]
  refine congrArg (fun models => (candidates schema models).value) ?_
  have named := perm.filter (·.name.name == name)
  cases found : models.filter (·.name.name == name) with
  | nil => exact (found ▸ named).eq_nil
  | cons model rest =>
    have isModel := List.mem_filter.1 (found ▸ List.mem_cons_self : model ∈ models.filter _)
    cases eq_of_beq isModel.2
    rw [filter_name unique isModel.1] at found named
    rw [← found, List.perm_singleton.1 named]

variable {all others : List Candidate} {key : Candidate.Key}

theorem groupOf_of_self (same : key.low = key.high) :
    groupOf all key = (candidatesNamed all key.low).filter (·.groupKey == key) := by
  rw [candidatesNamed, List.filter_filter, groupOf]
  refine List.filter_congr fun candidate _ => ?_
  rw [Bool.eq_iff_iff, Bool.and_eq_true, beq_iff_eq, beq_iff_eq]
  refine ⟨fun grouped => ⟨grouped, ?_⟩, And.left⟩
  rcases (Candidate.sides_of_groupKey grouped).2 with side | side
  · exact side.1
  · exact side.1.trans same.symm

theorem groupOf_own {models : List Model} (unique : UniqueNames models) {model : Model}
    (member : model ∈ models) (same : key.low = key.high) (named : model.name.name = key.low) :
    groupOf (candidates schema models).value key =
      (ownCandidates schema model).value.filter (·.groupKey == key) := by
  rw [groupOf_of_self same, ← named, candidatesNamed_candidates, filter_name unique member,
    value_candidates, List.flatMap_singleton]

theorem filter_low_groupOf : (groupOf all key).filter (fun candidate =>
    candidate.model.name.name == key.low) =
      (candidatesNamed all key.low).filter (·.groupKey == key) := by
  rw [groupOf, candidatesNamed, List.filter_filter, List.filter_filter]
  exact List.filter_congr fun candidate _ => Bool.and_comm _ _

theorem filter_high_groupOf (different : key.low ≠ key.high) :
    (groupOf all key).filter (fun candidate => candidate.model.name.name != key.low) =
      (candidatesNamed all key.high).filter (·.groupKey == key) := by
  rw [groupOf, candidatesNamed, List.filter_filter, List.filter_filter]
  refine List.filter_congr fun candidate _ => ?_
  rw [Bool.eq_iff_iff, Bool.and_eq_true, Bool.and_eq_true, bne_iff_ne, beq_iff_eq, beq_iff_eq]
  constructor
  · rintro ⟨apart, grouped⟩
    have sides := (Candidate.sides_of_groupKey grouped).2
    exact ⟨grouped, (sides.resolve_left fun side => apart side.1).1⟩
  · rintro ⟨grouped, named⟩
    exact ⟨named ▸ different.symm, grouped⟩

theorem edgeOf_congr (low : candidatesNamed others key.low = candidatesNamed all key.low)
    (high : candidatesNamed others key.high = candidatesNamed all key.high) :
    edgeOf schema others key = edgeOf schema all key := by
  unfold edgeOf groupEdge
  split
  next same => rw [groupOf_of_self same, groupOf_of_self same, low]
  next different =>
    rw [filter_low_groupOf, filter_low_groupOf, filter_high_groupOf different,
      filter_high_groupOf different, low, high]

theorem groupKeys_perm (perm : (others.map Candidate.groupKey).Perm (all.map Candidate.groupKey)) :
    (groupKeys others).Perm (groupKeys all) := by
  refine (List.perm_ext_iff_of_nodup (nodup_eraseDups _) (nodup_eraseDups _)).2 fun key => ?_
  rw [List.mem_eraseDups, List.mem_eraseDups]
  exact perm.mem_iff

theorem value_relations (schema : Schema) : schema.relations.value =
    (groupKeys schema.candidates).filterMap fun key =>
      (edgeOf schema schema.candidates key).value :=
  value_groupEdges _

theorem reports_relations (schema : Schema) : schema.relations.diagnostics =
    (candidates schema schema.hierarchy.models).diagnostics ++
      (groupKeys schema.candidates).flatMap fun key =>
        (edgeOf schema schema.candidates key).diagnostics := by
  rw [← diagnostics_groupEdges]
  rfl

theorem relations_perm {other : Schema} (unique : UniqueNames schema.hierarchy.models)
    (perm : other.hierarchy.models.Perm schema.hierarchy.models)
    (own : ownCandidates other = ownCandidates schema)
    (edges : groupEdge other = groupEdge schema) :
    other.relations.value.Perm schema.relations.value ∧
      other.relations.diagnostics.Perm schema.relations.diagnostics := by
  have all (models : List Model) :
      (candidates other models).value = (candidates schema models).value := by
    rw [value_candidates, value_candidates, own]
  have candidatesPerm : other.candidates.Perm schema.candidates := by
    rw [Schema.candidates, all, value_candidates, Schema.candidates, value_candidates]
    exact perm.flatMap_right _
  have keys : (groupKeys other.candidates).Perm (groupKeys schema.candidates) :=
    groupKeys_perm (candidatesPerm.map _)
  have edge (key : Candidate.Key) :
      edgeOf other other.candidates key = edgeOf schema schema.candidates key := by
    have named (name : String) := @candidatesNamed_perm schema _ _ unique perm name
    rw [edgeOf, edges, ← edgeOf, Schema.candidates, all]
    exact edgeOf_congr (named key.low) (named key.high)
  constructor
  · rw [value_relations, value_relations]
    simp only [edge]
    exact keys.filterMap _
  · rw [reports_relations, reports_relations, reports_candidates, reports_candidates, own]
    simp only [edge]
    exact (perm.flatMap_right _).append (keys.flatMap_right _)

end Schemata.Relation
