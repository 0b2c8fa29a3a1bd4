import Mathlib.Data.List.Nodup
import Schemata.Proofs.Order.Permutations
import Schemata.Schema.Scope

set_option autoImplicit false

namespace Schemata

def Model.reorder (order : Model → List Ident) (model : Model) : Model :=
  { model with bases := order model }

def Declaration.reorder (order : Model → List Ident) : Declaration → Declaration
  | .model decl => .model (decl.reorder order)
  | other => other

def Document.reorder (order : Model → List Ident) (document : Document) : Document :=
  ⟨document.declarations.map (Declaration.reorder order)⟩

def ResolvedType.reorder (order : Model → List Ident) : ResolvedType → ResolvedType
  | .model decl => .model (decl.reorder order)
  | other => other

variable {order : Model → List Ident}

namespace Model

variable (model : Model)

@[simp] theorem name_reorder : (model.reorder order).name = model.name := rfl

@[simp] theorem isAbstract_reorder : (model.reorder order).isAbstract = model.isAbstract := rfl

@[simp] theorem fields_reorder : (model.reorder order).fields = model.fields := rfl

@[simp] theorem attributes_reorder : (model.reorder order).attributes = model.attributes := rfl

end Model

@[simp] theorem Declaration.name_reorder (declaration : Declaration) :
    (declaration.reorder order).name = declaration.name := by
  cases declaration <;> rfl

@[simp] theorem Declaration.reorder_bases :
    Declaration.reorder Model.bases = id := by
  funext declaration
  cases declaration <;> rfl

namespace ResolvedType

variable (type : ResolvedType)

@[simp] theorem isScalarOrEnum_reorder :
    (type.reorder order).isScalarOrEnum = type.isScalarOrEnum := by
  cases type <;> rfl

@[simp] theorem model?_reorder :
    (type.reorder order).model? = type.model?.map (Model.reorder order) := by
  cases type <;> rfl

@[simp] theorem describe_reorder : (type.reorder order).describe = type.describe := by
  cases type <;> rfl

@[simp] theorem sameScalar_reorder (other : ResolvedType) :
    (type.reorder order).sameScalar (other.reorder order) = type.sameScalar other := by
  cases type <;> cases other <;> rfl

end ResolvedType

namespace Document

variable (document : Document)

theorem models_reorder :
    (document.reorder order).models = document.models.map (Model.reorder order) := by
  unfold models reorder
  rw [List.filterMap_map, List.map_filterMap]
  refine congrArg (List.filterMap · document.declarations) (funext fun declaration => ?_)
  cases declaration <;> rfl

theorem enums_reorder : (document.reorder order).enums = document.enums := by
  unfold enums reorder
  rw [List.filterMap_map]
  refine congrArg (List.filterMap · document.declarations) (funext fun declaration => ?_)
  cases declaration <;> rfl

theorem functions_reorder : (document.reorder order).functions = document.functions := by
  unfold functions reorder
  rw [List.filterMap_map]
  refine congrArg (List.filterMap · document.declarations) (funext fun declaration => ?_)
  cases declaration <;> rfl

theorem attributeDecls_reorder :
    (document.reorder order).attributeDecls = document.attributeDecls := by
  unfold attributeDecls reorder
  rw [List.filterMap_map]
  refine congrArg (List.filterMap · document.declarations) (funext fun declaration => ?_)
  cases declaration <;> rfl

end Document

structure Schema.Reordered (order : Model → List Ident) (schema other : Schema) : Prop where
  declaration? : ∀ name, other.symbols.declaration? name =
    (schema.symbols.declaration? name).map (Declaration.reorder order)
  enumMember? : ∀ name, other.symbols.enumMember? name = schema.symbols.enumMember? name
  fields : ∀ name, ((other.hierarchy.fields name).map VisibleField.field).Perm
    ((schema.hierarchy.fields name).map VisibleField.field)
  distinct : ∀ name, ((schema.hierarchy.fields name).map VisibleField.name).Nodup
  attributes : ∀ name, ((other.hierarchy.attributes name).map VisibleAttribute.applied).Perm
    ((schema.hierarchy.attributes name).map VisibleAttribute.applied)

namespace Schema.Reordered

variable {schema other : Schema} (reordered : Reordered order schema other)
include reordered

theorem model? (name : String) :
    other.symbols.model? name = (schema.symbols.model? name).map (Model.reorder order) := by
  unfold SymbolTable.model?
  rw [reordered.declaration?]
  cases schema.symbols.declaration? name with
  | none => rfl
  | some declaration => cases declaration <;> rfl

theorem enum? (name : String) : other.symbols.enum? name = schema.symbols.enum? name := by
  unfold SymbolTable.enum?
  rw [reordered.declaration?]
  cases schema.symbols.declaration? name with
  | none => rfl
  | some declaration => cases declaration <;> rfl

theorem function? (name : String) :
    other.symbols.function? name = schema.symbols.function? name := by
  unfold SymbolTable.function?
  rw [reordered.declaration?]
  cases schema.symbols.declaration? name with
  | none => rfl
  | some declaration => cases declaration <;> rfl

theorem attribute? (name : String) :
    other.symbols.attribute? name = schema.symbols.attribute? name := by
  unfold SymbolTable.attribute?
  rw [reordered.declaration?]
  cases schema.symbols.declaration? name with
  | none => rfl
  | some declaration => cases declaration <;> rfl

theorem resolve (type : TypeRef) :
    other.symbols.resolve type = (schema.symbols.resolve type).reorder order := by
  unfold SymbolTable.resolve
  cases type.name with
  | named name =>
    simp only [reordered.declaration?]
    cases schema.symbols.declaration? name.name with
    | none => rfl
    | some declaration => cases declaration <;> rfl
  | _ => rfl

theorem typeOf (field : Field) : other.typeOf field = (schema.typeOf field).reorder order :=
  reordered.resolve field.type

theorem principal? : other.principal? = schema.principal?.map (Model.reorder order) :=
  reordered.model? principalName

theorem field? (model : Model) (name : String) :
    (other.field? (model.reorder order) name).map VisibleField.field =
      (schema.field? model name).map VisibleField.field := by
  have asField (fields : List VisibleField) :
      (fields.find? (·.name == name)).map VisibleField.field =
        (fields.map VisibleField.field).find? (·.name.name == name) := by
    rw [List.find?_map]
    rfl
  unfold Schema.field? Schema.fields
  rw [asField, asField, Model.name_reorder]
  refine find?_eq_of_perm (reordered.fields model.name.name) fun first isFirst second isSecond => ?_
  have distinct := reordered.distinct model.name.name
  rw [show (schema.hierarchy.fields model.name.name).map VisibleField.name =
    ((schema.hierarchy.fields model.name.name).map VisibleField.field).map (·.name.name) by
      rw [List.map_map]; rfl] at distinct
  intro firstNamed secondNamed
  refine List.inj_on_of_nodup_map distinct isFirst isSecond ?_
  rw [eq_of_beq firstNamed, eq_of_beq secondNamed]

theorem field?_cases (model : Model) (name : String) :
    (other.field? (model.reorder order) name = none ∧ schema.field? model name = none) ∨
      ∃ there here, other.field? (model.reorder order) name = some there ∧
        schema.field? model name = some here ∧ there.field = here.field := by
  have same := reordered.field? model name
  cases found : schema.field? model name with
  | none =>
    rw [found, Option.map_none, Option.map_eq_none_iff] at same
    exact .inl ⟨same, rfl⟩
  | some here =>
    rw [found, Option.map_some, Option.map_eq_some_iff] at same
    obtain ⟨there, known, same⟩ := same
    exact .inr ⟨there, here, known, rfl, same⟩

theorem isSome_field? (model : Model) (name : String) :
    (other.field? (model.reorder order) name).isSome = (schema.field? model name).isSome := by
  have same := congrArg Option.isSome (reordered.field? model name)
  rwa [Option.isSome_map, Option.isSome_map] at same

theorem isNone_field? (model : Model) (name : String) :
    (other.field? (model.reorder order) name).isNone = (schema.field? model name).isNone := by
  have same := congrArg Option.isNone (reordered.field? model name)
  rwa [Option.isNone_map, Option.isNone_map] at same

end Schema.Reordered

end Schemata
