import Schemata.Attribute.Binding
import Schemata.Diagnostic.Checked
import Schemata.Relation.Basic

/-!
# Inferring relations

Every field of a concrete model that refers to a concrete model is a candidate. The candidates
between two models under one name form a group, and a group of two opposite fields is a relation.
-/

set_option autoImplicit false

namespace Schemata

inductive ForeignKey
  | absent
  /-- Only one of its two lists is given. -/
  | incomplete
  | complete (fields references : List Ident)
deriving Repr, Inhabited

structure Candidate where
  model : Model
  field : Field
  target : Model
  name : Option String
  relation : Option Attribute
  key : ForeignKey
deriving Repr, Inhabited

namespace Candidate

def toEnd (candidate : Candidate) : RelationEnd :=
  ⟨candidate.model.name.name, candidate.field.name.name, candidate.field.type.isList,
    candidate.field.type.isOptional⟩

def span (candidate : Candidate) : Span :=
  match candidate.relation with
  | some applied => applied.span
  | none => candidate.field.name.span

structure Key where
  low : String
  high : String
  name : Option String
deriving Repr, DecidableEq, Inhabited

def groupKey (candidate : Candidate) : Key :=
  let own := candidate.model.name.name
  let other := candidate.target.name.name
  if other < own then ⟨other, own, candidate.name⟩ else ⟨own, other, candidate.name⟩

end Candidate

namespace Relation

def reject {α : Type} (span : Span) (issue : RelationIssue) : Checked (Option α) :=
  ⟨none, [.error span (.relation issue)]⟩

def reportUnless (condition : Bool) (span : Span) (issue : RelationIssue) : Checked Bool :=
  ⟨condition, reportIf (!condition) (.error span (.relation issue))⟩

def relationArguments (schema : Schema) (relation : Option Attribute) : List Bound :=
  match relation, schema.symbols.attribute? "@relation" with
  | some applied, some decl => (applied.bind decl).toOption.getD []
  | _, _ => []

def fieldIdents (value : Expr) : List Ident := value.fieldItems.map FieldItem.field

def foreignKey (span : Span) (bounds : List Bound) : Checked ForeignKey :=
  match Bound.value? bounds "fields", Bound.value? bounds "references" with
  | none, none => pure .absent
  | some fields, some references =>
      pure (.complete (fieldIdents fields) (fieldIdents references))
  | _, _ => ⟨.incomplete, [.error span (.relation .incompleteKey)]⟩

/-- The model that a field refers to if the field may be an end of a relation of its own. -/
def target? (schema : Schema) (visible : VisibleField) : Option Model :=
  if visible.viaDelegate then none
  else
    match schema.typeOf visible.field with
    | .model target => if target.isAbstract then none else some target
    | _ => none

def candidate? (schema : Schema) (model : Model) (visible : VisibleField) :
    Checked (Option Candidate) :=
  match target? schema visible with
  | none => pure none
  | some target => do
      let field := visible.field
      let relation := field.attribute? "@relation"
      let bounds := relationArguments schema relation
      let span := (relation.map Attribute.span).getD field.name.span
      let key ← foreignKey span bounds
      let name := (Bound.value? bounds "name").bind Expr.string?
      pure (some ⟨model, field, target, name, relation, key⟩)

def candidatesOf (schema : Schema) (model : Model) : List VisibleField → Checked (List Candidate)
  | [] => pure []
  | visible :: rest => do
      let first ← candidate? schema model visible
      let others ← candidatesOf schema model rest
      pure (first.toList ++ others)

def candidates (schema : Schema) : List Model → Checked (List Candidate)
  | [] => pure []
  | model :: rest => do
      let own ←
        if model.isAbstract then pure []
        else candidatesOf schema model (schema.fields model)
      let others ← candidates schema rest
      pure (own ++ others)

def checkKeyTypes (schema : Schema) (owner : Candidate) : List (Ident × Ident) → Checked Bool
  | [] => pure true
  | (field, reference) :: rest =>
      match schema.field? owner.model field.name, schema.field? owner.target reference.name with
      | some own, some other => do
          let type := schema.typeOf own.field
          let otherType := schema.typeOf other.field
          if type.sameScalar otherType then checkKeyTypes schema owner rest
          else
            reportUnless false field.span
              (.keyTypes field.name type.describe reference.name otherType.describe)
      | _, _ => pure false

def checkKey (schema : Schema) (owner : Candidate) (fields references : List Ident) :
    Checked Bool :=
  if fields.length = references.length then
    checkKeyTypes schema owner (fields.zip references)
  else reportUnless false owner.span .keyLengths

def isUniqueField (schema : Schema) (owner : Model) (fields : List Ident) : Bool :=
  match fields with
  | [only] =>
      (schema.field? owner only.name).any fun visible =>
        visible.field.hasAttribute "@unique" || visible.field.hasAttribute "@id"
  | _ => false

def coversUniqueList (schema : Schema) (owner : Model) (fields : List Ident) : Bool :=
  ((schema.attributes owner).filter fun visible =>
    visible.name == "@@unique" || visible.name == "@@id").any fun visible =>
      let names := visible.applied.fieldNames
      !names.isEmpty && names.all fun name => fields.any (·.name == name)

def checkOneToOne (schema : Schema) (owner other : Candidate) (fields : List Ident) :
    Checked Unit := do
  let _ ← reportUnless other.field.type.isOptional other.field.name.span
    (.notOptional other.field.name.name other.model.name.name)
  match fields with
  | [] => pure ()
  | first :: _ => do
      let unique :=
        isUniqueField schema owner.model fields || coversUniqueList schema owner.model fields
      let _ ← reportUnless unique first.span (.notUnique first.name)
      pure ()

def ownedEdge (schema : Schema) (first second : Candidate) (side : Side)
    (fields references : List Ident) : Checked (Option RelationEdge) :=
  let owner := if side = .first then first else second
  let other := if side = .first then second else first
  let name := owner.field.name
  if owner.field.type.isList then
    reject name.span
      (if other.field.type.isList then .manyToManyKey name.name else .keyOnListSide name.name)
  else do
    let valid ← checkKey schema owner fields references
    let cardinality := if other.field.type.isList then Cardinality.oneToMany else .oneToOne
    if valid && cardinality == .oneToOne then checkOneToOne schema owner other fields
    pure (some ⟨first.name, first.toEnd, second.toEnd, cardinality, some side,
      fields.map Ident.name, references.map Ident.name⟩)

def keylessEdge (first second : Candidate) : Checked (Option RelationEdge) :=
  if first.field.type.isList && second.field.type.isList then
    pure (some ⟨first.name, first.toEnd, second.toEnd, .manyToMany, none, [], []⟩)
  else
    let single := if first.field.type.isList then second else first
    reject single.field.name.span
      (.noKey first.model.name.name first.field.name.name second.model.name.name
        second.field.name.name)

def pairEdge (schema : Schema) (first second : Candidate) : Checked (Option RelationEdge) :=
  match first.key, second.key with
  | .incomplete, _ | _, .incomplete => pure none
  | .complete _ _, .complete _ _ => reject second.span .keyOnBothSides
  | .absent, .absent => keylessEdge first second
  | .complete fields references, .absent =>
      ownedEdge schema first second .first fields references
  | .absent, .complete fields references =>
      ownedEdge schema first second .second fields references

def checkAmbiguous (side : List Candidate) : List Diagnostic :=
  match side with
  | first :: _ :: _ =>
      [.error first.field.name.span (.relation (.ambiguous
        (side.map fun candidate => candidate.field.name.name) first.model.name.name
        first.target.name.name))]
  | _ => []

def missingOpposite (candidate : Candidate) : Checked (Option RelationEdge) :=
  reject candidate.field.name.span
    (.missingOpposite candidate.field.name.name candidate.model.name.name
      candidate.target.name.name)

def selfEdge (schema : Schema) (members : List Candidate) : Checked (Option RelationEdge) :=
  match members with
  | [single] => missingOpposite single
  | [first, second] => pairEdge schema first second
  | _ => ⟨none, checkAmbiguous members⟩

def crossEdge (schema : Schema) (left right : List Candidate) : Checked (Option RelationEdge) :=
  match left, right with
  | [first], [second] => pairEdge schema first second
  | [single], [] | [], [single] => missingOpposite single
  | _, _ => ⟨none, checkAmbiguous left ++ checkAmbiguous right⟩

def groupEdge (schema : Schema) (key : Candidate.Key) (members : List Candidate) :
    Checked (Option RelationEdge) :=
  if key.low = key.high then selfEdge schema members
  else
    crossEdge schema (members.filter fun candidate => candidate.model.name.name == key.low)
      (members.filter fun candidate => candidate.model.name.name != key.low)

def groupEdges (schema : Schema) (all : List Candidate) :
    List Candidate.Key → Checked (List RelationEdge)
  | [] => pure []
  | key :: rest => do
      let edge ← groupEdge schema key (all.filter fun candidate => candidate.groupKey == key)
      let others ← groupEdges schema all rest
      pure (edge.toList ++ others)

end Relation

/-- Infer the relations in the order in which their groups first appear. -/
def Schema.relations (schema : Schema) : Checked (List RelationEdge) := do
  let all ← Relation.candidates schema schema.hierarchy.models
  Relation.groupEdges schema all (all.map Candidate.groupKey).eraseDups

end Schemata
