set_option autoImplicit false

namespace Schemata

inductive Cardinality
  | oneToOne
  | oneToMany
  | manyToMany
deriving Repr, DecidableEq, Inhabited

inductive Side
  | first
  | second
deriving Repr, DecidableEq, Inhabited

structure RelationEnd where
  model : String
  field : String
  isList : Bool
  isOptional : Bool
deriving Repr, DecidableEq, Inhabited

structure RelationEdge where
  name : Option String
  first : RelationEnd
  second : RelationEnd
  cardinality : Cardinality
  owner : Option Side
  /-- The fields of the foreign key on the owning model. -/
  fields : List String
  /-- The fields on the other model that the foreign key refers to. -/
  references : List String
deriving Repr, DecidableEq, Inhabited

namespace RelationEdge

def ends (edge : RelationEdge) : List RelationEnd := [edge.first, edge.second]

def endAt (edge : RelationEdge) : Side → RelationEnd
  | .first => edge.first
  | .second => edge.second

def owningEnd? (edge : RelationEdge) : Option RelationEnd := edge.owner.map edge.endAt

def involves (edge : RelationEdge) (model field : String) : Bool :=
  edge.ends.any fun relationEnd => relationEnd.model == model && relationEnd.field == field

def touches (edge : RelationEdge) (model : String) : Bool :=
  edge.ends.any fun relationEnd => relationEnd.model == model

end RelationEdge

end Schemata
