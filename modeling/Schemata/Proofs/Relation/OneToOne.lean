import Mathlib.Data.Set.Defs
import Schemata.Proofs.Attribute.KeyLists
import Schemata.Proofs.Order.Groups
import Schemata.Proofs.Relation.ForeignKeys

/-!
# One-to-one relations

The key of a one-to-one relation has to tell the records of its owner apart, so that no two of them
refer to one record. It does if it holds all fields of a criterion of the owner. Only some criteria
are looked for, and a key that holds another one is reported.
-/

set_option autoImplicit false

namespace Schemata

def TellsApart {Record : Type} (agree : String → Record → Record → Prop) (records : Set Record)
    (fields : List String) : Prop :=
  ∀ first ∈ records, ∀ second ∈ records, (∀ field ∈ fields, agree field first second) →
    first = second

theorem TellsApart.of_subset {Record : Type} {agree : String → Record → Record → Prop}
    {records : Set Record} {fields more : List String} (apart : TellsApart agree records fields)
    (subset : fields ⊆ more) : TellsApart agree records more :=
  fun first isFirst second isSecond same =>
    apart first isFirst second isSecond fun field listed => same field (subset listed)

/--
A criterion that is looked for: a marked field that is the whole key, or a list that stands first in
its attribute.
-/
inductive Schema.IsReadCriterion (schema : Schema) (model : Model) (key : List String) :
    List String → Prop
  | field {visible : VisibleField} (seen : visible ∈ schema.fields model)
      (marked : (visible.field.hasAttribute "@id" || visible.field.hasAttribute "@unique") = true)
      (alone : key = [visible.name]) : IsReadCriterion schema model key [visible.name]
  | list {visible : VisibleAttribute} {value : Expr} (seen : visible ∈ schema.attributes model)
      (isKey : visible.name ∈ keyAttributes) (leads : visible.applied.leadsWithFields = true)
      (given : schema.argument? visible.applied "fields" = some value) :
      IsReadCriterion schema model key value.listedNames

namespace Relation

section

variable {schema : Schema} {owner : Model} {fields : List Ident}

theorem mem_keyAttributes {name : String} :
    (name == "@@unique" || name == "@@id") = true ↔ name ∈ keyAttributes := by
  simp [keyAttributes, or_comm]

theorem isUniqueField_eq_true : isUniqueField schema owner fields = true ↔
    ∃ only visible, fields = [only] ∧ schema.field? owner only.name = some visible ∧
      (visible.field.hasAttribute "@id" || visible.field.hasAttribute "@unique") = true := by
  unfold isUniqueField
  split
  next only =>
    simp only [Option.any_eq_true, Bool.or_comm]
    constructor
    · rintro ⟨visible, found, marked⟩
      exact ⟨only, visible, rfl, found, marked⟩
    · rintro ⟨_, visible, same, found, marked⟩
      cases same
      exact ⟨visible, found, marked⟩
  next several =>
    refine ⟨nofun, ?_⟩
    rintro ⟨only, _, same, _⟩
    exact absurd same (several only)

theorem coversUniqueList_eq_true : coversUniqueList schema owner fields = true ↔
    ∃ visible ∈ schema.attributes owner, visible.name ∈ keyAttributes ∧
      visible.applied.fieldNames ≠ [] ∧ visible.applied.fieldNames ⊆ fields.map Ident.name := by
  simp only [coversUniqueList, List.any_eq_true, List.mem_filter, mem_keyAttributes,
    Bool.and_eq_true, Bool.not_eq_true', List.isEmpty_eq_false_iff, List.all_eq_true, beq_iff_eq,
    and_assoc, List.subset_def, List.mem_map]

end

section

variable {document : Document} {options : ValidationOptions} {owner : Model} {fields : List Ident}

theorem exists_criterion (valid : (document.validate options).isValid = true)
    (member : owner ∈ document.models)
    (leads : ∀ visible ∈ (Schema.ofDocument document).attributes owner,
      visible.name ∈ keyAttributes → visible.applied.leadsWithFields = true)
    (unique : (isUniqueField (.ofDocument document) owner fields ||
      coversUniqueList (.ofDocument document) owner fields) = true) :
    ∃ names, (Schema.ofDocument document).IsCriterion owner names ∧
      names ⊆ fields.map Ident.name := by
  rcases Bool.or_eq_true_iff.1 unique with single | listed
  · obtain ⟨only, visible, rfl, found, marked⟩ := isUniqueField_eq_true.1 single
    have named : visible.name = only.name := by simpa using List.find?_some found
    exact ⟨_, .field (List.mem_of_find?_eq_some found) marked, by simp [named]⟩
  · obtain ⟨visible, seen, isKey, _, subset⟩ := coversUniqueList_eq_true.1 listed
    have read := Schema.isCriterion_fieldNames valid member seen isKey (leads _ seen isKey)
    exact ⟨_, read.1, subset⟩

theorem unique_of_isReadCriterion (clean : Clean (Schema.ofDocument document).checkAttributes)
    {names : List String}
    (read : (Schema.ofDocument document).IsReadCriterion owner (fields.map Ident.name) names)
    (nonempty : names ≠ []) (subset : names ⊆ fields.map Ident.name) :
    (isUniqueField (.ofDocument document) owner fields ||
      coversUniqueList (.ofDocument document) owner fields) = true := by
  cases read with
  | @field visible seen marked alone =>
    obtain ⟨only, rfl, named⟩ := List.map_eq_singleton_iff.1 alone
    have found := Schema.field?_of_mem seen
    rw [← named] at found
    exact Bool.or_eq_true_iff.2 (.inl (isUniqueField_eq_true.2 ⟨only, visible, rfl, found, marked⟩))
  | @list visible value seen isKey leads given =>
    obtain ⟨source, isSource, declared⟩ := Hierarchy.mem_attributes_ofModels seen
    -- The list was checked where the attribute stands.
    have checked := (Document.Applies.model isSource declared).clean_of_checkAttributes clean
    rw [← Schema.fieldNames_of_leads checked (mem_listAttributes isKey) leads given]
      at nonempty subset
    exact Bool.or_eq_true_iff.2
      (.inr (coversUniqueList_eq_true.2 ⟨visible, seen, isKey, nonempty, subset⟩))

end

section

variable {schema : Schema} {owner other : Candidate} {edge : RelationEdge}
  {fields references : List Ident}

theorem value_checkKeyTypes (pairs : List (Ident × Ident))
    (clean : Clean (checkKeyTypes schema owner pairs).diagnostics)
    (known : ∀ pair ∈ pairs, (∃ own, schema.field? owner.model pair.1.name = some own) ∧
      ∃ target, schema.field? owner.target pair.2.name = some target) :
    (checkKeyTypes schema owner pairs).value = true := by
  induction pairs with
  | nil => rfl
  | cons pair rest ih =>
    obtain ⟨⟨⟨own, isOwn⟩, target, isTarget⟩, others⟩ := List.forall_mem_cons.1 known
    simp only [checkKeyTypes, isOwn, isTarget] at clean ⊢
    by_cases same : (schema.typeOf own.field).sameScalar (schema.typeOf target.field) = true
    next =>
      rw [if_pos same] at clean ⊢
      exact ih clean others
    next =>
      rw [if_neg same] at clean
      simp [reportUnless] at clean

theorem value_checkKey (clean : Clean (checkKey schema owner fields references).diagnostics)
    (isField : ∀ field ∈ fields, ∃ own, schema.field? owner.model field.name = some own)
    (isReference : ∀ reference ∈ references,
      ∃ target, schema.field? owner.target reference.name = some target) :
    (checkKey schema owner fields references).value = true := by
  unfold checkKey at clean ⊢
  split at clean
  next sameLength =>
    rw [if_pos sameLength]
    refine value_checkKeyTypes _ clean fun pair member => ?_
    exact ⟨isField _ (List.of_mem_zip member).1, isReference _ (List.of_mem_zip member).2⟩
  next => simp [reportUnless] at clean

theorem clean_checkOneToOne {first : Ident} {rest : List Ident}
    (clean : Clean (checkOneToOne schema owner other (first :: rest)).diagnostics) :
    other.field.type.isOptional = true ∧
      (isUniqueField schema owner.model (first :: rest) ||
        coversUniqueList schema owner.model (first :: rest)) = true := by
  simp only [checkOneToOne, reportUnless, Checked.diagnostics_bind, Checked.diagnostics_pure,
    List.append_nil, Clean.append, Clean.reportIf_error, Bool.not_eq_false'] at clean
  exact clean

end

def reportsKey (diagnostic : Diagnostic) : Bool :=
  match diagnostic.issue with
  | .relation (.notUnique _) => true
  | _ => false

def LeavesKeys (found : List Diagnostic) : Prop :=
  ∀ diagnostic ∈ found, reportsKey diagnostic = false

namespace LeavesKeys

@[simp] theorem nil : LeavesKeys [] := nofun

@[simp] theorem singleton {diagnostic : Diagnostic} :
    LeavesKeys [diagnostic] ↔ reportsKey diagnostic = false :=
  List.forall_mem_singleton

@[simp] theorem append {first second : List Diagnostic} :
    LeavesKeys (first ++ second) ↔ LeavesKeys first ∧ LeavesKeys second :=
  List.forall_mem_append

@[simp] theorem flatMap {α : Type} {items : List α} {check : α → List Diagnostic} :
    LeavesKeys (items.flatMap check) ↔ ∀ item ∈ items, LeavesKeys (check item) := by
  simp only [LeavesKeys, List.mem_flatMap]
  exact ⟨fun leaves item found diagnostic reported => leaves diagnostic ⟨item, found, reported⟩,
    fun leaves diagnostic ⟨item, found, reported⟩ => leaves item found diagnostic reported⟩

end LeavesKeys

section

variable {schema : Schema} {owner other first second : Candidate} {edge : RelationEdge}
  {fields references : List Ident} {key : Candidate.Key} {members : List Candidate}

theorem leavesKeys_reject {α : Type} {span : Span} {issue : RelationIssue}
    (leaves : reportsKey (.error span (.relation issue)) = false) :
    LeavesKeys (reject span issue : Checked (Option α)).diagnostics :=
  LeavesKeys.singleton.2 leaves

theorem leavesKeys_reportUnless {condition : Bool} {span : Span} {issue : RelationIssue}
    (leaves : reportsKey (.error span (.relation issue)) = false) :
    LeavesKeys (reportUnless condition span issue).diagnostics := by
  cases condition with
  | true => exact .nil
  | false => exact LeavesKeys.singleton.2 leaves

theorem leavesKeys_checkOneToOne
    (unique : (isUniqueField schema owner.model fields ||
      coversUniqueList schema owner.model fields) = true) :
    LeavesKeys (checkOneToOne schema owner other fields).diagnostics := by
  have optional : LeavesKeys (reportUnless other.field.type.isOptional other.field.name.span
      (.notOptional other.field.name.name other.model.name.name)).diagnostics :=
    leavesKeys_reportUnless rfl
  unfold checkOneToOne
  cases fields with
  | nil => simpa using optional
  | cons only rest =>
    simp only [Checked.diagnostics_bind, Checked.diagnostics_pure, List.append_nil,
      LeavesKeys.append, unique]
    exact ⟨optional, .nil⟩

theorem leavesKeys_checkKeyTypes (pairs : List (Ident × Ident)) :
    LeavesKeys (checkKeyTypes schema owner pairs).diagnostics := by
  induction pairs with
  | nil => exact .nil
  | cons pair rest ih =>
    unfold checkKeyTypes
    split
    next =>
      dsimp only
      split
      · exact ih
      · exact leavesKeys_reportUnless (by rfl)
    next => exact .nil

theorem leavesKeys_checkKey : LeavesKeys (checkKey schema owner fields references).diagnostics := by
  unfold checkKey
  split
  · exact leavesKeys_checkKeyTypes _
  · exact leavesKeys_reportUnless (by rfl)

theorem leavesKeys_ownedEdge {side : Side}
    (none : (ownedEdge schema first second side fields references).value = Option.none) :
    LeavesKeys (ownedEdge schema first second side fields references).diagnostics := by
  generalize isOwner : (if side = .first then first else second) = owner
  generalize isOther : (if side = .first then second else first) = other
  rw [value_ownedEdge isOwner isOther] at none
  cases isList : owner.field.type.isList with
  | false => simp [isList] at none
  | true =>
    unfold ownedEdge
    simp only [isOwner, isOther, isList, if_true]
    cases other.field.type.isList with
    | true | false => exact leavesKeys_reject (by rfl)

theorem leavesKeys_pairEdge (none : (pairEdge schema first second).value = Option.none) :
    LeavesKeys (pairEdge schema first second).diagnostics := by
  unfold pairEdge at none ⊢
  split at none
  next => exact .nil
  next => exact .nil
  next => exact leavesKeys_reject (by rfl)
  next =>
    unfold keylessEdge
    split
    · exact .nil
    · exact leavesKeys_reject (by rfl)
  next => exact leavesKeys_ownedEdge none
  next => exact leavesKeys_ownedEdge none

theorem leavesKeys_of_unowned {edge : RelationEdge}
    (made : (pairEdge schema first second).value = some edge) (unowned : edge.owner = none) :
    LeavesKeys (pairEdge schema first second).diagnostics := by
  unfold pairEdge at made ⊢
  split at made
  next => cases made
  next => cases made
  next => cases made
  next =>
    unfold keylessEdge at made ⊢
    split at made
    next both =>
      rw [if_pos both]
      exact .nil
    next => cases made
  next isKey _ =>
    have owned := (ownedPair_of_ownedEdge (if_pos rfl) (if_pos rfl) isKey made).1
    cases unowned.symm.trans owned
  next _ isKey =>
    have owned := (ownedPair_of_ownedEdge (if_neg (by decide)) (if_neg (by decide)) isKey made).1
    cases unowned.symm.trans owned

theorem leavesKeys_checkAmbiguous (side : List Candidate) : LeavesKeys (checkAmbiguous side) := by
  unfold checkAmbiguous
  split
  · exact LeavesKeys.singleton.2 (by rfl)
  · exact .nil

theorem leavesKeys_selfEdge (none : (selfEdge schema members).value = Option.none) :
    LeavesKeys (selfEdge schema members).diagnostics := by
  unfold selfEdge at none ⊢
  split at none
  next => exact leavesKeys_reject (by rfl)
  next => exact leavesKeys_pairEdge none
  next => exact leavesKeys_checkAmbiguous _

theorem leavesKeys_crossEdge {left right : List Candidate}
    (none : (crossEdge schema left right).value = Option.none) :
    LeavesKeys (crossEdge schema left right).diagnostics := by
  unfold crossEdge at none ⊢
  split at none
  next => exact leavesKeys_pairEdge none
  next => exact leavesKeys_reject (by rfl)
  next => exact leavesKeys_reject (by rfl)
  next => exact LeavesKeys.append.2 ⟨leavesKeys_checkAmbiguous _, leavesKeys_checkAmbiguous _⟩

theorem leavesKeys_groupEdge (none : (groupEdge schema key members).value = Option.none) :
    LeavesKeys (groupEdge schema key members).diagnostics := by
  unfold groupEdge at none ⊢
  by_cases same : key.low = key.high
  next =>
    rw [if_pos same] at none ⊢
    exact leavesKeys_selfEdge none
  next =>
    rw [if_neg same] at none ⊢
    exact leavesKeys_crossEdge none

theorem leavesKeys_candidate? (model : Model) (visible : VisibleField) :
    LeavesKeys (candidate? schema model visible).diagnostics := by
  unfold candidate?
  split
  next => exact .nil
  next =>
    simp only [Checked.diagnostics_bind, Checked.diagnostics_pure, List.append_nil]
    unfold foreignKey
    split
    next => exact .nil
    next => exact .nil
    next => exact LeavesKeys.singleton.2 (by rfl)

theorem leavesKeys_candidates (models : List Model) :
    LeavesKeys (candidates schema models).diagnostics := by
  rw [reports_candidates, LeavesKeys.flatMap]
  intro model _
  cases isAbstract : model.isAbstract with
  | true =>
    rw [ownCandidates, if_pos isAbstract]
    exact .nil
  | false =>
    rw [reports_ownCandidates isAbstract, LeavesKeys.flatMap, List.forall_mem_map]
    exact fun visible _ => leavesKeys_candidate? model visible

end

structure Owns (schema : Schema) (edge : RelationEdge) (side : Side) (owner other : Candidate) :
    Prop where
  owned : edge.owner = some side
  listed : owner ∈ schema.candidates
  ownerEnd : edge.endAt side = owner.toEnd
  otherEnd : edge.endAt side.opposite = other.toEnd

theorem OwnedPair.single {schema : Schema} {edge : RelationEdge} {owner other : Candidate}
    {fields references : List Ident} {found : List Diagnostic}
    (pair : OwnedPair schema edge owner other fields references found)
    (oneToOne : edge.cardinality = .oneToOne) : other.field.type.isList = false := by
  have cardinality := pair.cardinality
  rw [oneToOne] at cardinality
  cases isList : other.field.type.isList with
  | false => rfl
  | true => simp [isList] at cardinality

theorem owned_of_oneToOne {schema : Schema} {key : Candidate.Key} {edge : RelationEdge}
    (made : (edgeOf schema schema.candidates key).value = some edge)
    (oneToOne : edge.cardinality = .oneToOne) : edge.owner ≠ none := by
  obtain ⟨first, second, group, _⟩ := pair_of_edgeOf (fun _ => Candidate.statedBy_of_mem) made
  intro unowned
  have many := group.madeOf.keyed.unowned.1 unowned
  rw [oneToOne] at many
  cases many

theorem exists_ownedPair {schema : Schema} {key : Candidate.Key} {edge : RelationEdge}
    (made : (edgeOf schema schema.candidates key).value = some edge) (owned : edge.owner ≠ none) :
    ∃ side owner other fields references, Owns schema edge side owner other ∧
      OwnedPair schema edge owner other fields references
        (edgeOf schema schema.candidates key).diagnostics := by
  rcases pair_of_edgeOf (fun _ => Candidate.statedBy_of_mem) made with
    ⟨first, second, group, paired⟩
  rw [paired] at made ⊢
  rcases Option.ne_none_iff_exists'.1 owned with ⟨side, owned⟩
  rcases ownedPair_of_pairEdge made owned with ⟨fields, references, pair⟩
  refine ⟨side, _, _, fields, references, ?_, pair⟩
  cases side with
  | first => exact ⟨owned, (group.mem_iff.2 (.inl rfl)).1, group.madeOf.first, group.madeOf.second⟩
  | second => exact ⟨owned, (group.mem_iff.2 (.inr rfl)).1, group.madeOf.second, group.madeOf.first⟩

theorem OwnedPair.reports_oneToOne {schema : Schema} {edge : RelationEdge} {owner other : Candidate}
    {fields references : List Ident} {found : List Diagnostic} {diagnostic : Diagnostic}
    (pair : OwnedPair schema edge owner other fields references found)
    (reported : diagnostic ∈ found) (isReport : reportsKey diagnostic = true) :
    edge.cardinality = .oneToOne ∧
      diagnostic ∈ (checkOneToOne schema owner other fields).diagnostics := by
  rw [pair.found, List.mem_append] at reported
  rcases reported with reported | reported
  · have leaves := leavesKeys_checkKey diagnostic reported
    cases isReport.symm.trans leaves
  · split at reported
    next checked =>
      have single : other.field.type.isList = false := by simp_all
      exact ⟨by rw [pair.cardinality, single]; rfl, reported⟩
    next => cases reported

end Relation

def Schema.ReportsKey (schema : Schema) (edge : RelationEdge) (diagnostic : Diagnostic) : Prop :=
  Relation.reportsKey diagnostic = true ∧ ∃ key ∈ Relation.groupKeys schema.candidates,
    (Relation.edgeOf schema schema.candidates key).value = some edge ∧
      diagnostic ∈ (Relation.edgeOf schema schema.candidates key).diagnostics

theorem Schema.exists_reportsKey {schema : Schema} {diagnostic : Diagnostic}
    (reported : diagnostic ∈ schema.relations.diagnostics)
    (isReport : Relation.reportsKey diagnostic = true) :
    ∃ edge ∈ schema.relations.value, schema.ReportsKey edge diagnostic := by
  rw [Relation.reports_relations, List.mem_append, List.mem_flatMap] at reported
  rcases reported with candidates | ⟨key, known, reported⟩
  · have leaves := Relation.leavesKeys_candidates _ diagnostic candidates
    rw [isReport] at leaves
    cases leaves
  · cases made : (Relation.edgeOf schema schema.candidates key).value with
    | none =>
      have leaves := Relation.leavesKeys_groupEdge made diagnostic reported
      rw [isReport] at leaves
      cases leaves
    | some edge =>
      have listed := Relation.mem_relations.2 ⟨key, known, made⟩
      exact ⟨edge, listed, isReport, key, known, made, reported⟩

structure RelationEdge.OwnedAt (schema : Schema) (edge : RelationEdge) (side : Side)
    (owner : Model) : Prop where
  owned : edge.owner = some side
  member : owner ∈ schema.hierarchy.models
  isOwner : (edge.endAt side).model = owner.name.name

/--
The other end of the edge is optional, and no two records of the owner share a key as long as the
criteria of the owner tell them apart.
-/
structure RelationEdge.KeepsApart (schema : Schema) (edge : RelationEdge) (side : Side)
    (owner : Model) : Prop extends edge.OwnedAt schema side owner where
  optional : (edge.endAt side.opposite).isOptional = true
  apart : ∀ (Record : Type) (agree : String → Record → Record → Prop) (records : Set Record),
    (∀ names, schema.IsCriterion owner names → TellsApart agree records names) →
      TellsApart agree records edge.fields

theorem Relation.Owns.ownedAt {schema : Schema} {edge : RelationEdge} {side : Side}
    {owner other : Candidate} (owns : Relation.Owns schema edge side owner other) :
    edge.OwnedAt schema side owner.model := by
  obtain ⟨_, _, member, _⟩ := Candidate.describes_of_mem owns.listed
  exact ⟨owns.owned, member, by rw [owns.ownerEnd, Candidate.toEnd]⟩

/-- The one-to-one relations of a valid document are so, if all keys give their fields first. -/
theorem Schema.keepsApart_of_oneToOne {document : Document} {options : ValidationOptions}
    {edge : RelationEdge} (valid : (document.validate options).isValid = true)
    (leads : ∀ model ∈ document.models, ∀ applied ∈ model.attributes,
      applied.name.name ∈ keyAttributes → applied.leadsWithFields = true)
    (listed : edge ∈ (Schema.ofDocument document).relations.value)
    (oneToOne : edge.cardinality = .oneToOne) (keyed : edge.fields ≠ []) :
    ∃ side owner, edge.KeepsApart (.ofDocument document) side owner := by
  obtain ⟨key, known, made⟩ := Relation.mem_relations.1 listed
  obtain ⟨side, owner, other, fields, references, owns, pair⟩ :=
    Relation.exists_ownedPair made (Relation.owned_of_oneToOne made oneToOne)
  have clean := Relation.clean_edgeOf (document.clean_of_isValid valid .relations) known
  -- Nothing stops the check of the key before it comes to the criteria.
  have checked := pair.checkedKey clean
  have names := Relation.known_of_checkedKey valid owns.listed checked
  have complete := Relation.value_checkKey checked.clean names.1 names.2
  have unshared :
      Clean (Relation.checkOneToOne (.ofDocument document) owner other fields).diagnostics := by
    rw [pair.found, complete, pair.single oneToOne, Clean.append] at clean
    exact clean.2
  obtain ⟨first, rest, rfl⟩ : ∃ first rest, fields = first :: rest := by
    refine List.exists_cons_of_ne_nil fun empty => keyed ?_
    rw [pair.fieldNames, empty, List.map_nil]
  obtain ⟨isOptional, unique⟩ := Relation.clean_checkOneToOne unshared
  have leadsToo (visible : VisibleAttribute)
      (seen : visible ∈ (Schema.ofDocument document).attributes owner.model)
      (isKey : visible.name ∈ keyAttributes) : visible.applied.leadsWithFields = true := by
    obtain ⟨source, isSource, stands⟩ := Hierarchy.mem_attributes_ofModels seen
    exact leads source isSource _ stands isKey
  have declared : owner.model ∈ document.models :=
    Schema.models_ofDocument document ▸ owns.ownedAt.member
  obtain ⟨names, criterion, subset⟩ := Relation.exists_criterion valid declared leadsToo unique
  refine ⟨side, owner.model, owns.ownedAt, ?_, fun Record agree records apart => ?_⟩
  · rw [owns.otherEnd]
    exact isOptional
  · rw [pair.fieldNames]
    exact (apart names criterion).of_subset subset

namespace Theatre

open Library

def numbered : Model :=
  ⟨ident "Seat", false, [],
    [Archive.field "row" int [], Archive.field "number" int [],
      Archive.field "ticket" (optional (named "Ticket")) []],
    [⟨ident "@@id", [.positional place], Span.zero⟩], Span.zero⟩

/-- `row Int` with the given marks, and `number Int` -/
def position (marks : List String) : List Field :=
  [Archive.field "row" int marks, Archive.field "number" int []]

def ticket (bases : List String) (fields : List Field) (keys : List Attribute) : Model :=
  ⟨ident "Ticket", false, bases.map ident,
    fields ++ [Archive.field "id" int ["@id"],
      Shop.field "seat" (named "Seat") [Shop.relation ["row", "number"] ["row", "number"]]],
    keys, Span.zero⟩

/-- `@@unique` with the fields of the names -/
def listed (names : List String) : Attribute :=
  ⟨ident "@@unique", [.positional (Archive.fieldNames names)], Span.zero⟩

/-- All that is placed has a row and a number, and `@@unique([number, row])`. -/
def placed : Model :=
  ⟨ident "Placed", true, [], position [],
    [listed ["number", "row"]], Span.zero⟩

def booking : Document := ⟨[.model numbered, .model placed, .model (ticket ["Placed"] [] [])]⟩

def sale (marks : List String) (keys : List Attribute) : Document :=
  ⟨[.model numbered, .model (ticket [] (position marks) keys)]⟩

def seating : RelationEdge :=
  ⟨none, ⟨"Seat", "ticket", false, true⟩, ⟨"Ticket", "seat", false, false⟩, .oneToOne,
    some .second, ["row", "number"], ["row", "number"]⟩

end Theatre

theorem Theatre.keepsApart_seating :
    (booking.validate .standard).isValid = true ∧
      seating ∈ (Schema.ofDocument booking).relations.value ∧
      ∃ side owner, seating.KeepsApart (.ofDocument booking) side owner := by
  have valid : (booking.validate .standard).isValid = true := by decide +kernel
  have listed : seating ∈ (Schema.ofDocument booking).relations.value := by decide +kernel
  have leads : ∀ model ∈ booking.models, ∀ applied ∈ model.attributes,
      applied.name.name ∈ keyAttributes → applied.leadsWithFields = true := by decide +kernel
  exact ⟨valid, listed, Schema.keepsApart_of_oneToOne valid leads listed rfl (by decide)⟩

theorem Schema.ReportsKey.owned {schema : Schema} {edge : RelationEdge} {diagnostic : Diagnostic}
    (reports : schema.ReportsKey edge diagnostic) : edge.owner ≠ none := by
  obtain ⟨isReport, key, _, made, found⟩ := reports
  obtain ⟨first, second, _, paired⟩ :=
    Relation.pair_of_edgeOf (fun _ => Candidate.statedBy_of_mem) made
  rw [paired] at made found
  intro unowned
  cases isReport.symm.trans (Relation.leavesKeys_of_unowned made unowned diagnostic found)

/--
A report of a key is about one-to-one relations, and the key of none of them holds a criterion that
is looked for.
-/
theorem Schema.holdsNone_of_reportsKey {document : Document} {diagnostic : Diagnostic}
    (clean : Clean (Schema.ofDocument document).checkAttributes)
    (isReport : Relation.reportsKey diagnostic = true)
    (reported : diagnostic ∈ (Schema.ofDocument document).relations.diagnostics) :
    (∃ edge ∈ (Schema.ofDocument document).relations.value,
        (Schema.ofDocument document).ReportsKey edge diagnostic) ∧
      ∀ edge, (Schema.ofDocument document).ReportsKey edge diagnostic →
        edge.cardinality = .oneToOne ∧
          ∃ side owner, edge.OwnedAt (.ofDocument document) side owner ∧
            ∀ names, (Schema.ofDocument document).IsReadCriterion owner edge.fields names →
              names ≠ [] → ¬ names ⊆ edge.fields := by
  refine ⟨exists_reportsKey reported isReport, fun edge reports => ?_⟩
  have owned := reports.owned
  obtain ⟨_, key, _, made, found⟩ := reports
  obtain ⟨side, owner, other, fields, references, owns, pair⟩ :=
    Relation.exists_ownedPair made owned
  obtain ⟨oneToOne, found⟩ := pair.reports_oneToOne found isReport
  refine ⟨oneToOne, side, owner.model, owns.ownedAt, fun names read nonempty subset => ?_⟩
  rw [pair.fieldNames] at read subset
  -- A criterion that is looked for is found, and the key is left alone then.
  have unique := Relation.unique_of_isReadCriterion clean read nonempty subset
  cases isReport.symm.trans (Relation.leavesKeys_checkOneToOne unique diagnostic found)

namespace Theatre

/-- `Field "row" is part of a one-to-one relation and must be marked as @unique` -/
def report : Diagnostic := .error Span.zero (.relation (.notUnique "row"))

theorem reportsKey_of_found {document : Document}
    (found : (Relation.edgeOf (.ofDocument document) (Schema.ofDocument document).candidates
      ⟨"Seat", "Ticket", none⟩).value = some seating ∧
      report ∈ (Relation.edgeOf (.ofDocument document) (Schema.ofDocument document).candidates
        ⟨"Seat", "Ticket", none⟩).diagnostics)
    (known : ⟨"Seat", "Ticket", none⟩ ∈
      Relation.groupKeys (Schema.ofDocument document).candidates) :
    (Schema.ofDocument document).ReportsKey seating report :=
  ⟨rfl, _, known, found⟩

end Theatre

/-- `@@unique([row, id])` does not help a key of `row` and `number`. -/
theorem Theatre.holdsNone_sale :
    let document := sale [] [listed ["row", "id"]]
    let owner := ticket [] (position []) [listed ["row", "id"]]
    Clean (Schema.ofDocument document).checkAttributes ∧
      report ∈ (Schema.ofDocument document).relations.diagnostics ∧
      (Schema.ofDocument document).IsReadCriterion owner seating.fields ["row", "id"] ∧
      (∃ edge ∈ (Schema.ofDocument document).relations.value,
          (Schema.ofDocument document).ReportsKey edge report) ∧
        ∀ edge, (Schema.ofDocument document).ReportsKey edge report →
          edge.cardinality = .oneToOne ∧
            ∃ side owner, edge.OwnedAt (.ofDocument document) side owner ∧
              ∀ names, (Schema.ofDocument document).IsReadCriterion owner edge.fields names →
                names ≠ [] → ¬ names ⊆ edge.fields := by
  intro document owner
  have clean : Clean (Schema.ofDocument document).checkAttributes := by
    rw [show (Schema.ofDocument document).checkAttributes = [] by decide +kernel]
    exact .nil
  have reported : report ∈ (Schema.ofDocument document).relations.diagnostics := by decide +kernel
  have seen : ((Schema.ofDocument document).attributes owner)[0]? =
      some ⟨listed ["row", "id"], "Ticket"⟩ := rfl
  exact ⟨clean, reported, .list (List.mem_of_getElem? seen) (by decide) rfl rfl,
    Schema.holdsNone_of_reportsKey clean rfl reported⟩

structure Theatre.Misses (document : Document) (owner : Model) (names : List String) : Prop where
  clean : (Schema.ofDocument document).checkAttributes = []
  reported : (Schema.ofDocument document).ReportsKey seating report
  owned : seating.OwnedAt (.ofDocument document) .second owner
  criterion : (Schema.ofDocument document).IsCriterion owner names
  nonempty : names ≠ []
  held : names ⊆ seating.fields

/-- The row of a ticket is marked, or a list of both fields stands behind the name of its key. -/
theorem Theatre.misses_sale :
    Misses (sale ["@unique"] []) (ticket [] (position ["@unique"]) []) ["row"] ∧
      Misses (sale [] [mapFirst]) (ticket [] (position []) [mapFirst]) ["row", "number"] := by
  constructor
  · have seen : ((Schema.ofDocument (sale ["@unique"] [])).fields
        (ticket [] (position ["@unique"]) []))[0]? =
          some ⟨Archive.field "row" Library.int ["@unique"], "Ticket", false, false⟩ := rfl
    exact ⟨by decide +kernel, reportsKey_of_found (by decide +kernel) (by decide +kernel),
      ⟨rfl, by simp [Schema.models_ofDocument, sale, Document.models], rfl⟩,
      .field (List.mem_of_getElem? seen) rfl, List.cons_ne_nil _ _, by decide⟩
  · have seen : ((Schema.ofDocument (sale [] [mapFirst])).attributes
        (ticket [] (position []) [mapFirst]))[0]? = some ⟨mapFirst, "Ticket"⟩ := rfl
    have given : (Schema.ofDocument (sale [] [mapFirst])).argument? mapFirst "fields" =
        some place := rfl
    exact ⟨by decide +kernel, reportsKey_of_found (by decide +kernel) (by decide +kernel),
      ⟨rfl, by simp [Schema.models_ofDocument, sale, Document.models], rfl⟩,
      .list (List.mem_of_getElem? seen) (by decide) given, List.cons_ne_nil _ _, by decide⟩

end Schemata
