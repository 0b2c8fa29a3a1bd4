import Mathlib.Data.List.Forall2
import Schemata.Proofs.Attribute.FieldLists
import Schemata.Proofs.Relation.Partition

/-!
# Foreign keys

The fields of a key and the fields that it refers to go together one by one, and each pair holds the
same values. Nothing is checked of a key without fields, and lists pass for their items.
-/

set_option autoImplicit false

namespace Schemata

def Side.opposite : Side → Side
  | .first => .second
  | .second => .first

def ResolvedType.SameValues (left right : ResolvedType) : Prop :=
  (∃ kind, left = .scalar kind ∧ right = .scalar kind) ∨
    ∃ decl, left = .enum decl ∧ right = .enum decl

def Schema.RefersTo (schema : Schema) (owner other : Model) (field reference : String) : Prop :=
  ∃ own target, schema.field? owner field = some own ∧
    schema.field? other reference = some target ∧
      (schema.typeOf own.field).SameValues (schema.typeOf target.field)

def Schema.namesNoList (schema : Schema) (model : Model) (names : List String) : Bool :=
  names.all fun name =>
    (schema.field? model name).all fun visible => !visible.field.type.isList

/-- The key that a field declares, if any, lists some fields, and neither side lists lists. -/
def Schema.hasPlainKey (schema : Schema) (model : Model) (field : Field) : Bool :=
  ((schema.relationFields? field "fields").all fun names =>
    !names.isEmpty && schema.namesNoList model names) &&
  (schema.relationFields? field "references").all fun names =>
    (schema.typeOf field).model?.all fun target => schema.namesNoList target names

def Schema.hasPlainKeys (schema : Schema) : Bool :=
  schema.hierarchy.models.all fun model =>
    (schema.fields model).all fun visible => schema.hasPlainKey model visible.field

namespace SymbolTable

theorem name_of_declaration? {table : SymbolTable} {name : String} {declaration : Declaration}
    (found : table.declaration? name = some declaration) : declaration.name.name = name := by
  rcases declaration?_eq_some found with ⟨origin, known, _⟩
  simpa [Symbol.name] using List.find?_some known

theorem declaration?_of_resolve {table : SymbolTable} {type : TypeRef} {decl : EnumDecl}
    (resolved : table.resolve type = .enum decl) :
    table.declaration? decl.name.name = some (.enum decl) := by
  unfold resolve at resolved
  split at resolved
  next => cases resolved
  next => cases resolved
  next => cases resolved
  next =>
    split at resolved
    next => cases resolved
    next found =>
      cases resolved
      rw [← name_of_declaration? found] at found
      exact found
    next => cases resolved

end SymbolTable

theorem Schema.sameValues_of_sameScalar {schema : Schema} {own other : Field}
    (same : (schema.typeOf own).sameScalar (schema.typeOf other) = true) :
    (schema.typeOf own).SameValues (schema.typeOf other) := by
  unfold ResolvedType.sameScalar at same
  split at same
  next left right isLeft isRight =>
    exact .inl ⟨left, isLeft, eq_of_beq same ▸ isRight⟩
  next left right isLeft isRight =>
    -- Enums of one name are one declaration of the table.
    have here := SymbolTable.declaration?_of_resolve isLeft
    have there := SymbolTable.declaration?_of_resolve isRight
    rw [← (eq_of_beq same : left.name.name = right.name.name), here] at there
    cases there
    exact .inr ⟨left, isLeft, isRight⟩
  next => cases same

namespace Relation

variable {schema : Schema} {first second owner other : Candidate} {edge : RelationEdge}
  {side : Side} {fields references : List Ident}

theorem refersTo_of_checkKeyTypes (pairs : List (Ident × Ident))
    (clean : Clean (checkKeyTypes schema owner pairs).diagnostics)
    (known : ∀ pair ∈ pairs, (∃ own, schema.field? owner.model pair.1.name = some own) ∧
      ∃ target, schema.field? owner.target pair.2.name = some target) :
    ∀ pair ∈ pairs, schema.RefersTo owner.model owner.target pair.1.name pair.2.name := by
  induction pairs with
  | nil => exact nofun
  | cons pair rest ih =>
    rcases known pair List.mem_cons_self with ⟨⟨own, isOwn⟩, target, isTarget⟩
    have others := (List.forall_mem_cons.1 known).2
    simp only [checkKeyTypes, isOwn, isTarget] at clean
    by_cases same : (schema.typeOf own.field).sameScalar (schema.typeOf target.field) = true
    next =>
      rw [if_pos same] at clean
      exact List.forall_mem_cons.2
        ⟨⟨own, target, isOwn, isTarget, Schema.sameValues_of_sameScalar same⟩, ih clean others⟩
    next =>
      rw [if_neg same] at clean
      simp [reportUnless] at clean

theorem forall₂_of_checkKey
    (clean : Clean (checkKey schema owner fields references).diagnostics)
    (isField : ∀ field ∈ fields, ∃ own, schema.field? owner.model field.name = some own)
    (isReference : ∀ reference ∈ references,
      ∃ target, schema.field? owner.target reference.name = some target) :
    List.Forall₂ (schema.RefersTo owner.model owner.target)
      (fields.map Ident.name) (references.map Ident.name) := by
  unfold checkKey at clean
  split at clean
  next sameLength =>
    rw [List.forall₂_map_left_iff, List.forall₂_map_right_iff, List.forall₂_iff_zip]
    refine ⟨sameLength, fun {field reference} paired => ?_⟩
    refine refersTo_of_checkKeyTypes _ clean (fun pair member => ?_) (field, reference) paired
    exact ⟨isField _ (List.of_mem_zip member).1, isReference _ (List.of_mem_zip member).2⟩
  next => simp [reportUnless] at clean

theorem diagnostics_ownedEdge (isOwner : (if side = .first then first else second) = owner)
    (isOther : (if side = .first then second else first) = other)
    (single : owner.field.type.isList = false) :
    (ownedEdge schema first second side fields references).diagnostics =
      (checkKey schema owner fields references).diagnostics ++
        if (checkKey schema owner fields references).value && !other.field.type.isList then
          (checkOneToOne schema owner other fields).diagnostics
        else [] := by
  unfold ownedEdge
  simp only [isOwner, isOther, single, Bool.false_eq_true, if_false, Checked.diagnostics_bind]
  congr 1
  cases other.field.type.isList <;> cases (checkKey schema owner fields references).value <;>
    simp

structure OwnedPair (schema : Schema) (edge : RelationEdge) (owner other : Candidate)
    (fields references : List Ident) (found : List Diagnostic) : Prop where
  key : owner.key = .complete fields references
  fieldNames : edge.fields = fields.map Ident.name
  referenceNames : edge.references = references.map Ident.name
  cardinality : edge.cardinality = if other.field.type.isList then .oneToMany else .oneToOne
  found : found = (checkKey schema owner fields references).diagnostics ++
    if (checkKey schema owner fields references).value && !other.field.type.isList then
      (checkOneToOne schema owner other fields).diagnostics
    else []

theorem ownedPair_of_ownedEdge (isOwner : (if side = .first then first else second) = owner)
    (isOther : (if side = .first then second else first) = other)
    (key : owner.key = .complete fields references)
    (made : (ownedEdge schema first second side fields references).value = some edge) :
    edge.owner = some side ∧ OwnedPair schema edge owner other fields references
      (ownedEdge schema first second side fields references).diagnostics := by
  rw [value_ownedEdge isOwner isOther] at made
  split at made
  next => cases made
  next single =>
    cases made
    exact ⟨rfl, key, rfl, rfl, rfl, diagnostics_ownedEdge isOwner isOther (by simpa using single)⟩

theorem ownedPair_of_pairEdge (made : (pairEdge schema first second).value = some edge)
    (owned : edge.owner = some side) :
    ∃ fields references,
      OwnedPair schema edge (if side = .first then first else second)
        (if side = .first then second else first) fields references
        (pairEdge schema first second).diagnostics := by
  unfold pairEdge at made ⊢
  split at made
  next => cases made
  next => cases made
  next => cases made
  next =>
    -- Without a key there is no owner.
    unfold keylessEdge at made
    split at made
    next =>
      cases made
      cases owned
    next => cases made
  next fields references isKey isAbsent =>
    rcases ownedPair_of_ownedEdge (if_pos rfl) (if_pos rfl) isKey made with ⟨isSide, pair⟩
    cases owned.symm.trans isSide
    exact ⟨fields, references, pair⟩
  next fields references isAbsent isKey =>
    rcases ownedPair_of_ownedEdge (if_neg (by decide)) (if_neg (by decide)) isKey made with
      ⟨isSide, pair⟩
    cases owned.symm.trans isSide
    exact ⟨fields, references, pair⟩

structure CheckedKey (schema : Schema) (edge : RelationEdge) (owner : Candidate)
    (fields references : List Ident) : Prop where
  key : owner.key = .complete fields references
  fieldNames : edge.fields = fields.map Ident.name
  referenceNames : edge.references = references.map Ident.name
  clean : Clean (checkKey schema owner fields references).diagnostics

theorem OwnedPair.checkedKey {found : List Diagnostic}
    (pair : OwnedPair schema edge owner other fields references found) (clean : Clean found) :
    CheckedKey schema edge owner fields references := by
  rw [pair.found, Clean.append] at clean
  exact ⟨pair.key, pair.fieldNames, pair.referenceNames, clean.1⟩

theorem checkedKey_of_pairEdge (made : (pairEdge schema first second).value = some edge)
    (clean : Clean (pairEdge schema first second).diagnostics) (owned : edge.owner = some side) :
    ∃ fields references,
      CheckedKey schema edge (if side = .first then first else second) fields references := by
  rcases ownedPair_of_pairEdge made owned with ⟨fields, references, pair⟩
  exact ⟨fields, references, pair.checkedKey clean⟩

end Relation

namespace Candidate

variable {document : Document} {options : ValidationOptions} {candidate : Candidate}

theorem listsFields_of_mem (valid : (document.validate options).isValid = true)
    (listed : candidate ∈ (Schema.ofDocument document).candidates) :
    (∀ value, (Schema.ofDocument document).relationArgument? candidate.field "fields" = some value →
      (Schema.ofDocument document).ListsFields candidate.model value) ∧
    ∀ value,
      (Schema.ofDocument document).relationArgument? candidate.field "references" = some value →
        (Schema.ofDocument document).ListsFields candidate.target value := by
  rcases describes_of_mem listed with ⟨visible, seen, member, _, describes⟩
  have isModel := (isRelationField_of_mem listed).type
  rw [show (Schema.ofDocument document).hierarchy.models = document.models from
    Hierarchy.models_ofModels _] at member
  rcases document.declares_of_mem_fields valid member seen with
    ⟨source, isSource, declared, shares⟩
  rw [← describes.field] at declared
  rcases attribute?_relation document with ⟨decl, known, takesFields, takesReferences⟩
  -- The attribute was checked where the field is declared.
  have checked {param : String} {value : Expr}
      (given : (Schema.ofDocument document).relationArgument? candidate.field param = some value) :
      ∃ applied, Schema.isPlain applied = true ∧
        (Schema.ofDocument document).symbols.attribute? applied.name.name = some decl ∧
        Clean ((Schema.ofDocument document).checkAttribute (.field source candidate.field) applied) ∧
        (Schema.ofDocument document).argument? applied param = some value := by
    rcases Option.bind_eq_some_iff.1 given with ⟨applied, found, given⟩
    have named : applied.name.name = "@relation" := by simpa using List.find?_some found
    have clean := (document.clean_checkAttribute valid isSource).1 _ declared _
      (List.mem_of_find?_eq_some found)
    exact ⟨applied, by rw [Schema.isPlain, named]; decide, named ▸ known, clean, given⟩
  constructor
  · intro value given
    rcases checked given with ⟨applied, plain, known, clean, given⟩
    exact (Schema.listsFields_of_checkAttribute clean plain rfl known takesFields given).of_shared
      shares
  · intro value given
    rcases checked given with ⟨applied, plain, known, clean, given⟩
    exact Schema.listsFields_of_checkRelation clean plain isModel known takesReferences given

end Candidate

def Schema.IsSingle (schema : Schema) (model : Model) (name : String) : Prop :=
  ∃ visible, schema.field? model name = some visible ∧ visible.field.type.isList = false

/-- The end at one side belongs to `owner`, and its key refers to fields of `other`. -/
structure RelationEdge.KeyBetween (schema : Schema) (edge : RelationEdge) (side : Side)
    (owner other : Model) : Prop where
  isOwner : owner ∈ schema.hierarchy.models ∧ (edge.endAt side).model = owner.name.name
  isOther : other ∈ schema.hierarchy.models ∧ (edge.endAt side.opposite).model = other.name.name
  pairs : List.Forall₂ (schema.RefersTo owner other) edge.fields edge.references
  plain : schema.hasPlainKeys = true → edge.fields ≠ [] ∧
    (∀ name ∈ edge.fields, schema.IsSingle owner name) ∧
      ∀ name ∈ edge.references, schema.IsSingle other name

theorem Schema.isSingle_of_namesNoList {schema : Schema} {model : Model} {names : List String}
    (noList : schema.namesNoList model names = true)
    (known : ∀ name ∈ names, ∃ visible, schema.field? model name = some visible) :
    ∀ name ∈ names, schema.IsSingle model name := by
  intro name listed
  rcases known name listed with ⟨visible, found⟩
  have single := List.all_eq_true.1 noList name listed
  rw [found, Option.all_some] at single
  exact ⟨visible, found, by simpa using single⟩

namespace Relation

variable {document : Document} {options : ValidationOptions} {owner : Candidate}
  {edge : RelationEdge} {fields references : List Ident}

theorem known_of_checkedKey (valid : (document.validate options).isValid = true)
    (listed : owner ∈ (Schema.ofDocument document).candidates)
    (checked : CheckedKey (.ofDocument document) edge owner fields references) :
    (∀ field ∈ fields, ∃ own,
      (Schema.ofDocument document).field? owner.model field.name = some own) ∧
    ∀ reference ∈ references, ∃ target,
      (Schema.ofDocument document).field? owner.target reference.name = some target := by
  have lists := Candidate.listsFields_of_mem valid listed
  have stated := Candidate.statedBy_of_mem listed
  rw [checked.key] at stated
  -- The names of the key are those of the values that the field gives.
  have named {model : Model} {param : String} {idents : List Ident}
      (given : (Schema.ofDocument document).relationFields? owner.field param =
        some (idents.map Ident.name))
      (lists : ∀ value,
        (Schema.ofDocument document).relationArgument? owner.field param = some value →
          (Schema.ofDocument document).ListsFields model value) :
      ∀ ident ∈ idents, ∃ own,
        (Schema.ofDocument document).field? model ident.name = some own := by
    intro ident member
    rcases Option.map_eq_some_iff.1 given with ⟨value, known, names⟩
    have name : ident.name ∈ idents.map Ident.name := List.mem_map_of_mem member
    rw [← names] at name
    rcases List.mem_map.1 name with ⟨item, inside, same⟩
    exact same ▸ (lists value known).field? inside
  exact ⟨named stated.1 lists.1, named stated.2 lists.2⟩

theorem plain_of_checkedKey (valid : (document.validate options).isValid = true)
    (listed : owner ∈ (Schema.ofDocument document).candidates)
    (checked : CheckedKey (.ofDocument document) edge owner fields references)
    (plain : (Schema.ofDocument document).hasPlainKeys = true) :
    edge.fields ≠ [] ∧
      (∀ name ∈ edge.fields, (Schema.ofDocument document).IsSingle owner.model name) ∧
      ∀ name ∈ edge.references, (Schema.ofDocument document).IsSingle owner.target name := by
  rcases Candidate.describes_of_mem listed with ⟨visible, seen, member, _, describes⟩
  have here := List.all_eq_true.1 (List.all_eq_true.1 plain _ member) visible seen
  have stated := Candidate.statedBy_of_mem listed
  rw [checked.key] at stated
  have known := known_of_checkedKey valid listed checked
  rw [Schema.hasPlainKey, ← describes.field, stated.1, stated.2,
    (Candidate.isRelationField_of_mem listed).type] at here
  simp only [Option.all_some, ResolvedType.model?, Bool.and_eq_true, Bool.not_eq_true',
    List.isEmpty_eq_false_iff] at here
  rw [checked.fieldNames, checked.referenceNames]
  refine ⟨here.1.1, Schema.isSingle_of_namesNoList here.1.2 ?_,
    Schema.isSingle_of_namesNoList here.2 ?_⟩
  · exact List.forall_mem_map.2 known.1
  · exact List.forall_mem_map.2 known.2

theorem pairs_of_checkedKey (valid : (document.validate options).isValid = true)
    (listed : owner ∈ (Schema.ofDocument document).candidates)
    (checked : CheckedKey (.ofDocument document) edge owner fields references) :
    List.Forall₂ ((Schema.ofDocument document).RefersTo owner.model owner.target)
      edge.fields edge.references := by
  have known := known_of_checkedKey valid listed checked
  rw [checked.fieldNames, checked.referenceNames]
  exact forall₂_of_checkKey checked.clean known.1 known.2

end Relation

/-- Every relation of a valid document that has an owner has a key. -/
theorem Schema.keyBetween_of_mem_relations {document : Document} {options : ValidationOptions}
    (valid : (document.validate options).isValid = true) {edge : RelationEdge}
    (listed : edge ∈ (Schema.ofDocument document).relations.value) {side : Side}
    (owned : edge.owner = some side) :
    ∃ owner other, edge.KeyBetween (.ofDocument document) side owner other := by
  have unique := Document.uniqueNames (document.clean_of_isValid valid .symbols)
  rcases Relation.mem_relations.1 listed with ⟨group, known, made⟩
  rcases Relation.pair_of_edgeOf (fun _ => Candidate.statedBy_of_mem) made with
    ⟨first, second, pair, paired⟩
  have clean := Relation.clean_edgeOf (document.clean_of_isValid valid .relations) known
  rw [paired] at made clean
  rcases Relation.checkedKey_of_pairEdge made clean owned with ⟨fields, references, checked⟩
  have joins := Relation.joins_of_madeOfGroup unique pair
  have isFirst := (pair.mem_iff.2 (.inl rfl)).1
  have isSecond := (pair.mem_iff.2 (.inr rfl)).1
  -- Each end refers to the model of the other one.
  have target {candidate : Candidate} {model : Model}
      (member : candidate ∈ (Schema.ofDocument document).candidates)
      (type : (Schema.ofDocument document).typeOf candidate.field = .model model) :
      candidate.target = model :=
    ResolvedType.model.inj ((Candidate.isRelationField_of_mem member).type.symm.trans type)
  cases side with
  | first =>
    refine ⟨first.model, first.target, ⟨joins.isField.member, ?_⟩, ?_,
      Relation.pairs_of_checkedKey valid isFirst checked,
      Relation.plain_of_checkedKey valid isFirst checked⟩
    · rw [RelationEdge.endAt, joins.first, RelationEnd.ofField]
    · rw [target isFirst joins.isField.type, Side.opposite, RelationEdge.endAt, joins.second,
        RelationEnd.ofField]
      exact ⟨joins.isOpposite.member, rfl⟩
  | second =>
    refine ⟨second.model, second.target, ⟨joins.isOpposite.member, ?_⟩, ?_,
      Relation.pairs_of_checkedKey valid isSecond checked,
      Relation.plain_of_checkedKey valid isSecond checked⟩
    · rw [RelationEdge.endAt, joins.second, RelationEnd.ofField]
    · rw [target isSecond joins.isOpposite.type, Side.opposite, RelationEdge.endAt, joins.first,
        RelationEnd.ofField]
      exact ⟨joins.isField.member, rfl⟩

namespace Shop

open Library

def field (name : String) (type : TypeRef) (attributes : List Attribute) : Field :=
  ⟨ident name, type, attributes, Span.zero⟩

def fieldNames (names : List String) : Expr :=
  .list (names.map fun name => .reference (ident name) Span.zero) Span.zero

/-- `@relation(fields: [...], references: [...])` -/
def relation (fields references : List String) : Attribute :=
  ⟨ident "@relation", [.named (ident "fields") (fieldNames fields),
    .named (ident "references") (fieldNames references)], Span.zero⟩

def region : EnumDecl :=
  ⟨ident "Region", ["NORTH", "SOUTH"].map fun name => ⟨ident name, [], Span.zero⟩, [], Span.zero⟩

def isId : Attribute := ⟨ident "@id", [], Span.zero⟩

def customer : Model :=
  ⟨ident "Customer", false, [],
    [field "id" int [], field "region" (named "Region") [],
      field "orders" (list (named "Order")) []],
    [⟨ident "@@id", [.positional (fieldNames ["id", "region"])], Span.zero⟩], Span.zero⟩

def placed : Model :=
  ⟨ident "Placed", true, [],
    [field "customerId" int [], field "region" (named "Region") [],
      field "customer" (named "Customer")
        [relation ["customerId", "region"] ["id", "region"]]], [], Span.zero⟩

def order : Model :=
  ⟨ident "Order", false, [ident "Placed"], [field "number" int [isId]], [], Span.zero⟩

def document : Document := ⟨[.enum region, .model customer, .model placed, .model order]⟩

def edge : RelationEdge :=
  ⟨none, ⟨"Customer", "orders", true, false⟩, ⟨"Order", "customer", false, false⟩, .oneToMany,
    some .second, ["customerId", "region"], ["id", "region"]⟩

def parcel : Model :=
  ⟨ident "Parcel", false, [],
    [field "id" int [isId], field "stopIds" (list int) [],
      field "stop" (named "Stop") [relation ["stopIds"] ["id"]],
      field "depot" (named "Depot") [relation [] []]], [], Span.zero⟩

def target (name : String) : Model :=
  ⟨ident name, false, [], [field "id" int [isId], field "parcels" (list (named "Parcel")) []], [],
    Span.zero⟩

def delivery : Document := ⟨[.model parcel, .model (target "Stop"), .model (target "Depot")]⟩

end Shop

theorem Shop.keyBetween_edge :
    (document.validate .standard).isValid = true ∧
      edge ∈ (Schema.ofDocument document).relations.value ∧ edge.owner = some .second ∧
      (Schema.ofDocument document).hasPlainKeys = true ∧
      ∃ owner other, edge.KeyBetween (.ofDocument document) .second owner other := by
  have valid : (document.validate .standard).isValid = true := by decide +kernel
  have listed : edge ∈ (Schema.ofDocument document).relations.value := by decide +kernel
  exact ⟨valid, listed, rfl, by decide +kernel, Schema.keyBetween_of_mem_relations valid listed rfl⟩

/-- One key has a list of numbers for a number, and the other one has no fields. -/
theorem Shop.not_isSingle_stopIds :
    (delivery.validate .standard).isValid = true ∧
      (Schema.ofDocument delivery).relations.value.map
          (fun edge => (edge.owner, edge.fields, edge.references)) =
        [(some .first, ["stopIds"], ["id"]), (some .second, [], [])] ∧
      ¬ (Schema.ofDocument delivery).IsSingle parcel "stopIds" := by
  refine ⟨by decide +kernel, by decide +kernel, ?_⟩
  rintro ⟨visible, found, single⟩
  have isList : ((Schema.ofDocument delivery).field? parcel "stopIds").map
      (fun visible => visible.field.type.isList) = some true := by decide +kernel
  rw [found, Option.map_some, single] at isList
  cases isList

end Schemata
