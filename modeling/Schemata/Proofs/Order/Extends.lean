import Mathlib.Data.List.Forall2
import Schemata.Proofs.Order.Inherited
import Schemata.Proofs.Order.Turns

/-!
# Documents and the order of bases

A valid document stays valid if the bases of its models stand in another order, with the same fields
in every model and the same relations. Only the ends of a relation between two fields that one model
inherits from different bases may come in another order.
-/

set_option autoImplicit false

namespace Schemata

/-- The relation joins two fields that one model inherits from different bases. -/
def Schema.JoinsBases (schema : Schema) (edge : RelationEdge) : Prop :=
  edge.first.model = edge.second.model ∧
    ∃ first ∈ schema.hierarchy.fields edge.first.model,
      ∃ second ∈ schema.hierarchy.fields edge.second.model,
        first.name = edge.first.field ∧ second.name = edge.second.field ∧
          first.inherited = true ∧ second.inherited = true ∧ first.declaredIn ≠ second.declaredIn

/-- The same relation, but for the order of its ends if it joins two bases. -/
def Schema.SameRelation (schema : Schema) (edge edge' : RelationEdge) : Prop :=
  edge' = edge ∨ schema.JoinsBases edge ∧ edge' = edge.turn

variable {document : Document} {order : Model → List Ident} {options : ValidationOptions}

namespace Document

open Hierarchy

theorem groupNames_reachingFields (key : Candidate.Key) (models : List Model) (index : Nat)
    (model : Model) (check : VisibleField → Checked (Option Candidate)) :
    Relation.groupNames key ((reachingFields models index model).map check) =
      ((ancestorsAt models index).flatMap fun ancestor =>
          Relation.groupNames key ((inheritedFields models ancestor).map check)) ++
        Relation.groupNames key
          ((model.fields.map fun field => ⟨field, model.name.name, false, false⟩).map check) := by
  unfold Relation.groupNames reachingFields
  rw [List.map_append, List.filterMap_append, List.filter_append, List.map_append,
    List.map_flatMap, List.filterMap_flatMap, List.filter_flatMap, List.map_flatMap]

theorem groupNames_fields (unique : UniqueNames document.models) {model : Model}
    (member : model ∈ document.models) (concrete : model.isAbstract = false) {key : Candidate.Key}
    (same : key.low = key.high) (named : model.name.name = key.low) :
    Relation.groupNames key (((Schema.ofDocument document).fields model).map
        (Relation.candidate? (.ofDocument document) model)) =
      (Relation.groupOf (Schema.ofDocument document).candidates key).map (·.field.name.name) := by
  rw [Schema.candidates, Schema.models_ofDocument, Relation.groupOf_own unique member same named,
    Relation.value_ownCandidates concrete, Relation.groupNames]

section

variable (separated : document.SeparatesWays) (shuffles : Shuffles order document.models)
  (known : Faultless document.models)
  (reordered : Reordered order document (document.reorder order))
include separated shuffles known reordered

theorem exists_ancestors_of_turned {key : Candidate.Key} {first second : Candidate}
    (turned : Relation.Turned order (Schema.ofDocument document).candidates
      (Schema.ofDocument (document.reorder order)).candidates key first second) {index : Nat}
    (here : document.models[index]? = some first.model) (concrete : first.model.isAbstract = false) :
    let found (ancestor : Ancestor) := Relation.groupNames key
      ((inheritedFields document.models ancestor).map
        (Relation.candidate? (.ofDocument document) first.model))
    ∃ one ∈ ancestorsAt document.models index, ∃ another ∈ ancestorsAt document.models index,
      one.index ≠ another.index ∧ first.field.name.name ∈ found one ∧
        second.field.name.name ∈ found another := by
  have inside := (List.getElem?_eq_some_iff.1 here).1
  have member := List.mem_of_getElem? here
  have memberToo : first.model.reorder order ∈ (document.reorder order).models :=
    models_reorder document ▸ List.mem_map_of_mem member
  -- The names of the two fields in the order in which either document has them.
  have names := groupNames_fields known.unique member concrete turned.own turned.firstName
  have namesToo := groupNames_fields (models_reorder document ▸ uniqueNames_reorder known.unique)
    memberToo concrete turned.own turned.firstName
  have checks : Relation.candidate? (.ofDocument (document.reorder order))
      (first.model.reorder order) = Checked.convert (Option.map (Candidate.reorder order)) ∘
        Relation.candidate? (.ofDocument document) first.model :=
    funext (Relation.candidate?_reorder reordered.schema first.model)
  rw [turned.here, show (Schema.ofDocument document).fields first.model = _ from
    (known.sees here).fields, groupNames_reachingFields] at names
  rw [turned.there, checks, ← List.map_map, Relation.groupNames_reorder,
    fields_reorder_eq shuffles known here, groupNames_reachingFields] at namesToo
  refine exists_blocks_of_turned (shuffles.places_perm known.lawful inside)
    (places_ancestorsAt known.lawful inside).once
    (fun there isThere found isFound same => ?_) names namesToo
    (turned.field_ne (Relation.nodup_place_ofDocument known.unique))
  exact congrArg (Relation.groupNames key)
    (candidates_of_ancestor separated shuffles known here concrete isThere isFound same)

omit separated shuffles reordered in
theorem exists_inherited_of_groupNames {index : Nat} {model : Model}
    (here : document.models[index]? = some model) {ancestor : Ancestor}
    (above : ancestor ∈ ancestorsAt document.models index) {key : Candidate.Key} {name : String}
    (listed : name ∈ Relation.groupNames key ((inheritedFields document.models ancestor).map
      (Relation.candidate? (.ofDocument document) model))) :
    ∃ visible ∈ (Schema.ofDocument document).fields model, visible.name = name ∧
      visible.inherited = true ∧ ∃ base, document.models[ancestor.index]? = some base ∧
        visible.declaredIn = base.name.name := by
  obtain ⟨visible, found, rfl⟩ := Relation.exists_field_of_groupNames listed
  refine ⟨visible, ?_, rfl, inherited_of_mem found, declaredIn_of_inherited found⟩
  rw [show (Schema.ofDocument document).fields model = _ from (known.sees here).fields]
  exact List.mem_append_left _ (List.mem_flatMap.2 ⟨ancestor, above, found⟩)

theorem joinsBases_of_turned {key : Candidate.Key} {first second : Candidate} {edge : RelationEdge}
    (turned : Relation.Turned order (Schema.ofDocument document).candidates
      (Schema.ofDocument (document.reorder order)).candidates key first second)
    (made : (Relation.edgeOf (.ofDocument document) (Schema.ofDocument document).candidates
      key).value = some edge) :
    (Schema.ofDocument document).JoinsBases edge := by
  have isField := Candidate.isRelationField_of_mem turned.isFirst.1
  have member : first.model ∈ document.models := Schema.models_ofDocument document ▸ isField.member
  obtain ⟨index, here⟩ := List.mem_iff_getElem?.1 member
  obtain ⟨one, isOne, another, isAnother, apart, inOne, inAnother⟩ :=
    exists_ancestors_of_turned separated shuffles known reordered turned here isField.concrete
  obtain ⟨own, seen, ownName, ownInherited, base, there, declared⟩ :=
    exists_inherited_of_groupNames known here isOne inOne
  obtain ⟨other, seenToo, otherName, otherInherited, base', there', declaredToo⟩ :=
    exists_inherited_of_groupNames known here isAnother inAnother
  have ends := Relation.madeOf_of_pairEdge (Candidate.statedBy_of_mem turned.isFirst.1)
    (Candidate.statedBy_of_mem turned.isSecond.1) (turned.edgeOf_eq ▸ made)
  have model : edge.second.model = first.model.name.name :=
    (congrArg RelationEnd.model ends.second).trans turned.secondName
  unfold Schema.JoinsBases
  rw [model, ends.first, ends.second]
  refine ⟨rfl, own, seen, other, seenToo, ownName, otherName, ownInherited, otherInherited, ?_⟩
  rw [declared, declaredToo]
  exact fun same => apart (index_eq_of_name known.unique there there' same)

theorem edgeOf_reorder {key : Candidate.Key}
    (clean : Clean (Relation.edgeOf (.ofDocument document)
      (Schema.ofDocument document).candidates key).diagnostics) :
    let here := Relation.edgeOf (.ofDocument document) (Schema.ofDocument document).candidates key
    let there := Relation.edgeOf (.ofDocument (document.reorder order))
      (Schema.ofDocument (document.reorder order)).candidates key
    Option.Rel (Schema.ofDocument document).SameRelation here.value there.value ∧
      there.diagnostics = here.diagnostics := by
  have perm := (candidates_perm separated shuffles known reordered).1
  dsimp only
  rcases Relation.edgeOf_of_perm reordered.schema perm clean with
    same | ⟨first, second, turned, same⟩
  · rw [same]
    refine ⟨?_, rfl⟩
    cases (Relation.edgeOf (.ofDocument document) (Schema.ofDocument document).candidates
      key).value with
    | none => exact .none
    | some edge => exact .some (.inl rfl)
  · rw [same, Checked.convert]
    refine ⟨?_, rfl⟩
    cases made : (Relation.edgeOf (.ofDocument document) (Schema.ofDocument document).candidates
      key).value with
    | none => exact .none
    | some edge =>
      have joins := joinsBases_of_turned separated shuffles known reordered turned made
      exact .some (.inr ⟨joins, rfl⟩)

theorem relations_reorder (clean : Clean (Schema.ofDocument document).relations.diagnostics) :
    (∃ edges, (Schema.ofDocument (document.reorder order)).relations.value.Perm edges ∧
      List.Forall₂ (Schema.ofDocument document).SameRelation
        (Schema.ofDocument document).relations.value edges) ∧
      (Schema.ofDocument (document.reorder order)).relations.diagnostics ⊆
        (Schema.ofDocument document).relations.diagnostics := by
  obtain ⟨perm, reports⟩ := candidates_perm separated shuffles known reordered
  have keys : (Relation.groupKeys (Schema.ofDocument (document.reorder order)).candidates).Perm
      (Relation.groupKeys (Schema.ofDocument document).candidates) := by
    refine Relation.groupKeys_perm ((perm.map Candidate.groupKey).trans (.of_eq ?_))
    rw [List.map_map]
    rfl
  have edges (key : Candidate.Key)
      (listed : key ∈ Relation.groupKeys (Schema.ofDocument document).candidates) :=
    edgeOf_reorder separated shuffles known reordered (Relation.clean_edgeOf clean listed)
  constructor
  · refine ⟨_, (Relation.value_relations _).symm ▸ keys.filterMap _, ?_⟩
    rw [Relation.value_relations]
    refine List.rel_filterMap (R := fun key key' => key' = key ∧
      key ∈ Relation.groupKeys (Schema.ofDocument document).candidates) ?_
      (List.forall₂_same.2 fun key listed => ⟨rfl, listed⟩)
    rintro _ key ⟨rfl, listed⟩
    exact (edges key listed).1
  · rw [Relation.reports_relations, Relation.reports_relations, Schema.models_ofDocument,
      Schema.models_ofDocument]
    refine List.append_subset.2 ⟨fun report found => ?_, fun report found => ?_⟩
    · exact List.mem_append_left _ (reports.mem_iff.1 found)
    · obtain ⟨key, listed, found⟩ := List.mem_flatMap.1 found
      have listed := keys.mem_iff.1 listed
      rw [(edges key listed).2] at found
      exact List.mem_append_right _ (List.mem_flatMap.2 ⟨key, listed, found⟩)

end

/--
If the bases of its models are put into another order, a valid document keeps the fields of every
model, and it stays valid with the same relations if it separates the ways in which mixins come in.
-/
theorem isValid_reorder (valid : (document.validate options).isValid = true)
    (perm : ∀ model ∈ document.models, (order model).Perm model.bases) :
    (∀ name, (((Schema.ofDocument (document.reorder order)).hierarchy.fields name).map
        fun visible => (visible.declaredIn, visible.field)).Perm
      (((Schema.ofDocument document).hierarchy.fields name).map
        fun visible => (visible.declaredIn, visible.field))) ∧
      (document.SeparatesWays →
        ((document.reorder order).validate options).isValid = true ∧
          ∃ edges, (Schema.ofDocument (document.reorder order)).relations.value.Perm edges ∧
            List.Forall₂ (Schema.ofDocument document).SameRelation
              (Schema.ofDocument document).relations.value edges) := by
  have unambiguous := unambiguous_of_clean (document.clean_of_isValid valid .symbols)
  have unique : UniqueNames document.models := document.uniqueNames_of_nodup unambiguous.distinct
  have shuffles : Shuffles order document.models := ⟨perm, unique⟩
  have known := faultless_of_clean unique (document.clean_of_isValid valid .inheritance)
  refine ⟨fun name => ?_, fun separated => ?_⟩
  · rw [Schema.hierarchy_ofDocument, Schema.hierarchy_ofDocument, models_reorder]
    exact shuffles.fields_perm known name
  · have reordered := reordered_reorder unambiguous shuffles known
    have relations := relations_reorder separated shuffles known reordered
      (document.clean_of_isValid valid .relations)
    refine ⟨reordered.isValid valid ?_ ?_ relations.2, relations.1⟩
    · exact SymbolTable.clashes_of_unambiguous (unambiguous.reordered (.refl _))
    · rw [models_reorder]
      exact check_eq_nil (shuffles.faultless known)

end Document

namespace Folders

open Library Club

def idField : Field := Media.field "id" int ["@id"]

def tracked : Model :=
  ⟨ident "Tracked", true, [], [idField, field "note" string []], [], Span.zero⟩

def parented : Model :=
  ⟨ident "Parented", true, [],
    [field "parentId" int [],
      field "parent" (named "Folder")
        [relationName "tree", fieldList "fields" "parentId", fieldList "references" "id"]],
    [], Span.zero⟩

def listed : Model :=
  ⟨ident "Listed", true, [], [field "children" (list (named "Folder")) [relationName "tree"]], [],
    Span.zero⟩

def asset (base : String) (fields : List Field) : Model :=
  ⟨ident "Asset", false, [ident base], fields ++ [field "kind" string []], [Media.delegate "kind"],
    Span.zero⟩

def folder : Model :=
  ⟨ident "Folder", false, ["Tracked", "Asset", "Parented", "Listed"].map ident, [], [], Span.zero⟩

/-- Folders inherit both ends of their tree, and a mixin without relations in two ways. -/
def tree : Document :=
  ⟨[.model tracked, .model parented, .model listed, .model (asset "Tracked" []), .model folder]⟩

def owned : Model :=
  ⟨ident "Owned", true, [],
    [field "ownerId" int [],
      field "owner" (named "User") [fieldList "fields" "ownerId", fieldList "references" "id"]],
    [], Span.zero⟩

def user : Model :=
  ⟨ident "User", false, [], [idField, field "assets" (list (named "Asset")) [],
    field "videos" (list (named "Video")) []], [], Span.zero⟩

def video : Model := ⟨ident "Video", false, ["Owned", "Asset"].map ident, [], [], Span.zero⟩

/-- Videos inherit a mixin with a relation in two ways. -/
def videos : Document :=
  ⟨[.model user, .model owned, .model (asset "Owned" [idField]), .model video]⟩

def reversed (model : Model) : List Ident := model.bases.reverse

theorem reversed_perm (document : Document) :
    ∀ model ∈ document.models, (reversed model).Perm model.bases :=
  fun model _ => model.bases.reverse_perm

theorem separatesWays_tree : tree.SeparatesWays := by
  have edges : (Schema.ofDocument tree).hierarchy.edges =
      [⟨"Asset", "Tracked", .mixin⟩, ⟨"Folder", "Tracked", .mixin⟩, ⟨"Folder", "Asset", .delegate⟩,
        ⟨"Folder", "Parented", .mixin⟩, ⟨"Folder", "Listed", .mixin⟩] := by decide +kernel
  have facts : ∀ model ∈ tree.models,
      (model.name.name = "Asset" → model.bases.map Ident.name = ["Tracked"]) ∧
        (model.name.name = "Tracked" → model.bases.map Ident.name = [] ∧
          ∀ field ∈ model.fields, ((Schema.ofDocument tree).typeOf field).model?.isNone) := by
    decide +kernel
  intro model _ _ mixin delegate _ ⟨heir, _, entered⟩ above field declared
  have isAsset : delegate.name.name = "Asset" := by
    have listed := entered.2
    rw [edges] at listed
    simp at listed
    exact listed.2
  -- An asset extends nothing but the mixin that is reached in two ways, which extends nothing.
  obtain ⟨last, way, isBase⟩ := Relation.TransGen.tail'_iff.1 above
  have isTracked : last.name.name = "Tracked" := by
    obtain ⟨name, listed, named⟩ := isBase.2
    have known := List.mem_map_of_mem (f := Ident.name) listed
    rw [(facts delegate entered.1).1 isAsset, List.mem_singleton] at known
    exact named.symm.trans known
  have tracked := (facts last isBase.1).2 isTracked
  rcases Relation.ReflTransGen.cases_tail way with rfl | ⟨next, _, _, name, listed, _⟩
  · exact Option.isNone_iff_eq_none.1 (tracked.2 field declared)
  · rw [List.map_eq_nil_iff.1 tracked.1] at listed
    cases listed

end Folders

theorem Folders.isValid_tree :
    (tree.validate .standard).isValid = true ∧
      (∀ model ∈ tree.models, (reversed model).Perm model.bases) ∧
      (∀ name, (((Schema.ofDocument (tree.reorder reversed)).hierarchy.fields name).map
          fun visible => (visible.declaredIn, visible.field)).Perm
        (((Schema.ofDocument tree).hierarchy.fields name).map
          fun visible => (visible.declaredIn, visible.field))) ∧
      tree.SeparatesWays ∧ ((tree.reorder reversed).validate .standard).isValid = true ∧
      ∃ edges, (Schema.ofDocument (tree.reorder reversed)).relations.value.Perm edges ∧
        List.Forall₂ (Schema.ofDocument tree).SameRelation
          (Schema.ofDocument tree).relations.value edges := by
  have valid : (tree.validate .standard).isValid = true := by decide +kernel
  obtain ⟨fields, keeps⟩ := Document.isValid_reorder valid (reversed_perm tree)
  exact ⟨valid, reversed_perm tree, fields, separatesWays_tree, keeps separatesWays_tree⟩

/-- Relations get turned, and a document whose mixins come in two ways gets invalid. -/
theorem Folders.not_perm_tree :
    ((tree.validate .standard).isValid = true ∧
      (∀ model ∈ tree.models, (reversed model).Perm model.bases) ∧
      ¬ (Schema.ofDocument (tree.reorder reversed)).relations.value.Perm
        (Schema.ofDocument tree).relations.value) ∧
    (videos.validate .standard).isValid = true ∧
      (∀ model ∈ videos.models, (reversed model).Perm model.bases) ∧
      ((videos.reorder reversed).validate .standard).isValid = false :=
  ⟨⟨by decide +kernel, reversed_perm tree, by decide +kernel⟩, by decide +kernel,
    reversed_perm videos, by decide +kernel⟩

end Schemata
