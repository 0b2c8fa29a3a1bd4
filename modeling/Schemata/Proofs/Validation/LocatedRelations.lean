import Schemata.Proofs.Relation.Partition
import Schemata.Proofs.Validation.LocatedSchema

set_option autoImplicit false

namespace Schemata

variable {text : String}

structure Candidate.IsWithin (text : String) (candidate : Candidate) : Prop where
  name : candidate.field.name.span.IsWithin text
  relation : ∀ applied ∈ candidate.relation, applied.outline.IsWithin text
  key : ∀ fields references, candidate.key = .complete fields references →
    ∀ field ∈ fields, field.span.IsWithin text

theorem Candidate.IsWithin.span {candidate : Candidate} (within : candidate.IsWithin text) :
    candidate.span.IsWithin text := by
  unfold Candidate.span
  split
  next applied given => exact (Attribute.isWithin_outline.1 (within.relation applied given)).1
  next => exact within.name

theorem Expr.isWithin_of_fieldItem? {value : Expr} {item : FieldItem}
    (within : value.outline.IsWithin text) (entry : value.fieldItem? = some item) :
    item.field.span.IsWithin text := by
  unfold fieldItem? at entry
  split at entry
  next =>
    cases entry
    simpa [outline] using (Outline.all_node.1 within).2
  next =>
    cases entry
    exact (all_call.1 within).2.1
  next => cases entry

namespace Relation

theorem isWithin_fieldIdents {value : Expr} (within : value.outline.IsWithin text) :
    ∀ field ∈ fieldIdents value, field.span.IsWithin text := by
  intro field listed
  obtain ⟨item, found, rfl⟩ := List.mem_map.1 listed
  unfold Expr.fieldItems at found
  split at found
  next items span =>
    obtain ⟨entry, member, read⟩ := List.mem_filterMap.1 found
    exact Expr.isWithin_of_fieldItem? ((Expr.all_list.1 within).2 entry member) read
  next => exact Expr.isWithin_of_fieldItem? within (Option.mem_toList.1 found)

variable {schema : Schema}

theorem isWithin_relationArguments {relation : Option Attribute}
    (within : ∀ applied ∈ relation, applied.outline.IsWithin text) :
    ∀ given ∈ relationArguments schema relation, given.value.outline.IsWithin text := by
  unfold relationArguments
  split
  next applied decl _ =>
    cases bound : applied.bind decl with
    | error => exact fun _ found => nomatch found
    | ok bounds => exact Attribute.isWithin_of_bind (within applied rfl) bound
  next => exact fun _ found => nomatch found

theorem located_foreignKey {bounds : List Bound} {span : Span} (here : span.IsWithin text) :
    Located text (foreignKey span bounds).diagnostics := by
  unfold foreignKey
  split
  · exact Located.nil
  · exact Located.nil
  · simpa using here

theorem isWithin_of_foreignKey {bounds : List Bound} {span : Span} {fields references : List Ident}
    (within : ∀ given ∈ bounds, given.value.outline.IsWithin text)
    (key : (foreignKey span bounds).value = .complete fields references) :
    ∀ field ∈ fields, field.span.IsWithin text := by
  unfold foreignKey at key
  split at key
  next => cases key
  next value other found _ =>
    cases key
    exact isWithin_fieldIdents (Bound.isWithin_of_value? within found)
  next => cases key

section

variable {model : Model} {visible : VisibleField} (within : visible.field.outline.IsWithin text)

include within

theorem isWithin_relation : ∀ applied ∈ visible.field.attribute? "@relation",
    applied.outline.IsWithin text :=
  fun applied found =>
    (Field.isWithin_outline.1 within).2.2.2 applied (List.mem_of_find?_eq_some found)

theorem located_candidate? : Located text (candidate? schema model visible).diagnostics := by
  unfold candidate?
  split
  next => exact Located.nil
  next target _ =>
    simp only [Checked.diagnostics_bind, Checked.diagnostics_pure, List.append_nil]
    refine located_foreignKey ?_
    cases relation : visible.field.attribute? "@relation" with
    | none => exact (Field.isWithin_outline.1 within).2.1
    | some applied =>
      exact (Attribute.isWithin_outline.1 (isWithin_relation within applied relation)).1

theorem isWithin_of_candidate? {candidate : Candidate}
    (made : (candidate? schema model visible).value = some candidate) :
    candidate.IsWithin text := by
  unfold candidate? at made
  split at made
  next => cases made
  next target _ =>
    cases made
    refine ⟨(Field.isWithin_outline.1 within).2.1, isWithin_relation within, ?_⟩
    exact fun fields references => isWithin_of_foreignKey
      (isWithin_relationArguments (isWithin_relation within))

end

theorem located_candidatesOf {model : Model} {visibles : List VisibleField}
    (within : ∀ visible ∈ visibles, visible.field.outline.IsWithin text) :
    Located text (candidatesOf schema model visibles).diagnostics := by
  induction visibles with
  | nil => exact Located.nil
  | cons visible rest ih =>
    obtain ⟨here, behind⟩ := List.forall_mem_cons.1 within
    simpa [candidatesOf] using ⟨located_candidate? here, ih behind⟩

theorem located_candidates (within : schema.IsWithin text) (models : List Model) :
    Located text (candidates schema models).diagnostics := by
  induction models with
  | nil => exact Located.nil
  | cons model rest ih =>
    cases isAbstract : model.isAbstract with
    | true => rwa [(candidates_of_abstract isAbstract).2]
    | false =>
      rw [(candidates_of_concrete isAbstract).2, Located.append]
      exact ⟨located_candidatesOf (within.fields model), ih⟩

theorem isWithin_of_mem_candidates (within : schema.IsWithin text) {models : List Model} :
    ∀ candidate ∈ (candidates schema models).value, candidate.IsWithin text := by
  intro candidate listed
  obtain ⟨model, -, -, found⟩ := mem_candidates.1 listed
  rw [value_candidatesOf, List.mem_filterMap] at found
  obtain ⟨visible, seen, made⟩ := found
  exact isWithin_of_candidate? (within.fields model visible seen) made

theorem located_reject {α : Type} {span : Span} (here : span.IsWithin text)
    (issue : RelationIssue) :
    Located text (reject span issue : Checked (Option α)).diagnostics := by
  simpa [reject] using here

theorem located_reportUnless {span : Span} (here : span.IsWithin text) (condition : Bool)
    (issue : RelationIssue) : Located text (reportUnless condition span issue).diagnostics := by
  simpa [reportUnless] using fun _ => here

variable {owner other first second : Candidate} {fields references : List Ident}

theorem located_checkKeyTypes {pairs : List (Ident × Ident)}
    (within : ∀ pair ∈ pairs, pair.1.span.IsWithin text) :
    Located text (checkKeyTypes schema owner pairs).diagnostics := by
  induction pairs with
  | nil => exact Located.nil
  | cons pair rest ih =>
    obtain ⟨here, behind⟩ := List.forall_mem_cons.1 within
    unfold checkKeyTypes
    split
    · simp only
      split
      · exact ih behind
      · exact located_reportUnless here _ _
    · exact Located.nil

section

variable (named : ∀ field ∈ fields, field.span.IsWithin text)

include named

theorem located_checkKey (within : owner.IsWithin text) :
    Located text (checkKey schema owner fields references).diagnostics := by
  unfold checkKey
  split
  · exact located_checkKeyTypes fun pair paired => named pair.1 (List.of_mem_zip paired).1
  · exact located_reportUnless within.span _ _

theorem located_checkOneToOne (within : other.IsWithin text) :
    Located text (checkOneToOne schema owner other fields).diagnostics := by
  simp only [checkOneToOne, Checked.diagnostics_bind, Located.append]
  refine ⟨located_reportUnless within.name _ _, ?_⟩
  split
  next => exact Located.nil
  next field rest =>
    simpa using located_reportUnless (named field List.mem_cons_self) _ _

end

theorem located_ownedEdge (one : first.IsWithin text) (two : second.IsWithin text) (side : Side)
    (named : ∀ field ∈ fields, field.span.IsWithin text) :
    Located text (ownedEdge schema first second side fields references).diagnostics := by
  have owns : (if side = .first then first else second).IsWithin text := by
    split
    · exact one
    · exact two
  have joins : (if side = .first then second else first).IsWithin text := by
    split
    · exact two
    · exact one
  unfold ownedEdge
  simp only
  generalize (if side = .first then first else second) = owner at owns
  generalize (if side = .first then second else first) = other at joins
  split
  · exact located_reject owns.name _
  · simp only [Checked.diagnostics_bind, Located.append]
    refine ⟨located_checkKey named owns, ?_⟩
    generalize (if other.field.type.isList = true then Cardinality.oneToMany else .oneToOne) =
      cardinality
    split
    · simpa using located_checkOneToOne named joins
    · exact Located.nil

theorem located_keylessEdge (one : first.IsWithin text) (two : second.IsWithin text) :
    Located text (keylessEdge first second).diagnostics := by
  unfold keylessEdge
  simp only
  split
  · exact Located.nil
  · refine located_reject ?_ _
    split
    · exact two.name
    · exact one.name

theorem located_pairEdge (one : first.IsWithin text) (two : second.IsWithin text) :
    Located text (pairEdge schema first second).diagnostics := by
  unfold pairEdge
  split
  next => exact Located.nil
  next => exact Located.nil
  next => exact located_reject two.span _
  next => exact located_keylessEdge one two
  next fields references key _ => exact located_ownedEdge one two _ (one.key _ _ key)
  next fields references _ key => exact located_ownedEdge one two _ (two.key _ _ key)

theorem located_checkAmbiguous {side : List Candidate}
    (within : ∀ candidate ∈ side, candidate.IsWithin text) :
    Located text (checkAmbiguous side) := by
  unfold checkAmbiguous
  split
  next => simpa using (within _ List.mem_cons_self).name
  next => exact Located.nil

theorem located_missingOpposite {candidate : Candidate} (within : candidate.IsWithin text) :
    Located text (missingOpposite candidate).diagnostics :=
  located_reject within.name _

theorem located_selfEdge {members : List Candidate}
    (within : ∀ candidate ∈ members, candidate.IsWithin text) :
    Located text (selfEdge schema members).diagnostics := by
  unfold selfEdge
  split
  next => exact located_missingOpposite (List.forall_mem_singleton.1 within)
  next first second =>
    obtain ⟨one, behind⟩ := List.forall_mem_cons.1 within
    exact located_pairEdge one (List.forall_mem_singleton.1 behind)
  next => exact located_checkAmbiguous within

theorem located_crossEdge {left right : List Candidate}
    (leftWithin : ∀ candidate ∈ left, candidate.IsWithin text)
    (rightWithin : ∀ candidate ∈ right, candidate.IsWithin text) :
    Located text (crossEdge schema left right).diagnostics := by
  unfold crossEdge
  split
  next =>
    exact located_pairEdge (List.forall_mem_singleton.1 leftWithin)
      (List.forall_mem_singleton.1 rightWithin)
  next => exact located_missingOpposite (List.forall_mem_singleton.1 leftWithin)
  next => exact located_missingOpposite (List.forall_mem_singleton.1 rightWithin)
  next =>
    exact Located.append.2
      ⟨located_checkAmbiguous leftWithin, located_checkAmbiguous rightWithin⟩

theorem located_groupEdge {members : List Candidate}
    (within : ∀ candidate ∈ members, candidate.IsWithin text) (key : Candidate.Key) :
    Located text (groupEdge schema key members).diagnostics := by
  unfold groupEdge
  split
  · exact located_selfEdge within
  · exact located_crossEdge (fun candidate found => within candidate (List.mem_filter.1 found).1)
      fun candidate found => within candidate (List.mem_filter.1 found).1

end Relation

theorem Schema.located_relations {schema : Schema} (within : schema.IsWithin text) :
    Located text schema.relations.diagnostics := by
  simp only [relations, Checked.diagnostics_bind, Located.append, Relation.diagnostics_groupEdges,
    Located.flatMap]
  refine ⟨Relation.located_candidates within _, fun key _ => ?_⟩
  exact Relation.located_groupEdge (fun candidate member =>
    Relation.isWithin_of_mem_candidates within candidate (List.mem_filter.1 member).1) key

end Schemata
