import Schemata.Attribute.Check
import Schemata.Proofs.Order.Typing

set_option autoImplicit false

namespace Schemata

variable {order : Model → List Ident}

def AttributeSite.reorder (order : Model → List Ident) : AttributeSite → AttributeSite
  | .field owner decorated => .field (owner.reorder order) decorated
  | .model decl => .model (decl.reorder order)
  | .detached => .detached

namespace AttributeSite

variable (site : AttributeSite)

@[simp] theorem model?_reorder :
    (site.reorder order).model? = site.model?.map (Model.reorder order) := by
  cases site <;> rfl

@[simp] theorem field?_reorder : (site.reorder order).field? = site.field? := by
  cases site <;> rfl

@[simp] theorem isField_reorder : (site.reorder order).isField = site.isField := by
  cases site <;> rfl

theorem scope_reorder : (site.reorder order).scope = Scope.reorder order site.scope := by
  cases site <;> rfl

end AttributeSite

namespace Schema

variable {schema other : Schema} (reordered : Reordered order schema other)
include reordered

theorem isApplicable_reorder (decl : AttributeDecl) (field : Field) :
    other.isApplicable decl field = schema.isApplicable decl field := by
  unfold isApplicable
  rw [reordered.typeOf]
  cases schema.typeOf field <;> rfl

theorem checkFieldOption_reorder :
    other.checkFieldOption = schema.checkFieldOption := by
  funext applied argument
  unfold checkFieldOption isSortOrder
  rw [reordered.enum?]

theorem checkFieldReferences_reorder (model : Option Model) (applied : Attribute) (bound : Bound) :
    other.checkFieldReferences (model.map (Model.reorder order)) applied bound =
      schema.checkFieldReferences model applied bound := by
  have entry (model : Model) (param : String) (value : Expr) :
      other.checkFieldEntry applied param (model.reorder order) value =
        schema.checkFieldEntry applied param model value := by
    unfold checkFieldEntry
    simp only [reordered.isNone_field?, checkFieldOption_reorder reordered]
  unfold checkFieldReferences
  cases fieldEntries? bound.param bound.value with
  | none => rfl
  | some entries =>
    cases model with
    | none => rfl
    | some model => exact congrArg (List.flatMap · entries) (funext fun value => entry model _ value)

theorem checkTyped_reorder (site : AttributeSite) (applied : Attribute) (bound : Bound)
    (expected : ValueType) :
    other.checkTyped (site.reorder order) applied bound (expected.reorder order) =
      schema.checkTyped site applied bound expected := by
  simp only [checkTyped, AttributeSite.scope_reorder, Expr.check_reorder reordered,
    Checked.convert, ValueType.assignable_reorder]

theorem contextType_reorder (site : AttributeSite) :
    other.contextType (site.reorder order) = (schema.contextType site).reorder order := by
  unfold contextType
  rw [AttributeSite.field?_reorder]
  cases site.field? with
  | none => rfl
  | some field =>
    simp only [reordered.typeOf]
    exact ValueType.ofResolved_reorder _ _

theorem checkValue_reorder (site : AttributeSite) (applied : Attribute) (bound : Bound) :
    other.checkValue (site.reorder order) applied bound =
      schema.checkValue site applied bound := by
  have target : ((site.reorder order).field?.bind fun field => (other.typeOf field).model?) =
      (site.field?.bind fun field => (schema.typeOf field).model?).map (Model.reorder order) := by
    rw [AttributeSite.field?_reorder]
    cases site.field? with
    | none => rfl
    | some field => simp only [Option.bind_some, reordered.typeOf, ResolvedType.model?_reorder]
  unfold checkValue
  rw [target, AttributeSite.model?_reorder, contextType_reorder reordered,
    Typing.typeOfRef_reorder reordered]
  simp only [checkFieldReferences_reorder reordered, checkTyped_reorder reordered]

theorem checkPolicy_reorder (site : AttributeSite) (applied : Attribute) (bounds : List Bound) :
    other.checkPolicy (site.reorder order) applied bounds =
      schema.checkPolicy site applied bounds := by
  have operations : checkOperations (site.reorder order) applied bounds =
      checkOperations site applied bounds := by
    simp only [checkOperations, AttributeSite.isField_reorder]
  have condition (future : Bool) : other.checkCondition future (site.reorder order) applied bounds =
      schema.checkCondition future site applied bounds := by
    simp only [checkCondition, AttributeSite.scope_reorder, Expr.check_reorder reordered,
      Checked.convert, ValueType.isBooleanLike_reorder]
  rw [checkPolicy, operations, condition, checkPolicy]

theorem checkDelegate_reorder (model : Model) (applied : Attribute) (bounds : List Bound) :
    other.checkDelegate (model.reorder order) applied bounds =
      schema.checkDelegate model applied bounds := by
  have discriminator (field : Field) : other.isDiscriminator field = schema.isDiscriminator field := by
    unfold isDiscriminator
    rw [reordered.typeOf]
    cases schema.typeOf field <;> rfl
  have own (name : String) : (model.reorder order).field? name = model.field? name := rfl
  simp only [checkDelegate, discriminator, own, reordered.isSome_field?, Model.name_reorder]

theorem checkAttribute_reorder (site : AttributeSite) (applied : Attribute) :
    other.checkAttribute (site.reorder order) applied = schema.checkAttribute site applied := by
  have bound (bounds : List Bound) : other.checkBound (site.reorder order) applied bounds =
      schema.checkBound site applied bounds := by
    have values : other.checkValue (site.reorder order) applied =
        schema.checkValue site applied := funext (checkValue_reorder reordered site applied)
    unfold checkBound
    rw [checkPolicy_reorder reordered, AttributeSite.model?_reorder, values]
    cases site.model? with
    | none => rfl
    | some model => simp only [Option.map_some, checkDelegate_reorder reordered]
  simp only [checkAttribute, reordered.attribute?, bound, AttributeSite.field?_reorder,
    funext fun decl => funext (isApplicable_reorder reordered decl)]

theorem checkModelAttributes_reorder (model : Model) :
    other.checkModelAttributes (model.reorder order) = schema.checkModelAttributes model := by
  have onField (field : Field) : other.checkAttribute (.field (model.reorder order) field) =
      schema.checkAttribute (.field model field) :=
    funext (checkAttribute_reorder reordered (.field model field))
  have onModel : other.checkAttribute (.model (model.reorder order)) =
      schema.checkAttribute (.model model) :=
    funext (checkAttribute_reorder reordered (.model model))
  simp only [checkModelAttributes, onField, onModel, Model.fields_reorder, Model.attributes_reorder]

theorem checkDetached_reorder : other.checkAttribute .detached = schema.checkAttribute .detached :=
  funext (checkAttribute_reorder reordered .detached)

theorem checkEnumAttributes_reorder (decl : EnumDecl) :
    other.checkEnumAttributes decl = schema.checkEnumAttributes decl := by
  rw [checkEnumAttributes, checkDetached_reorder reordered, checkEnumAttributes]

end Schema

end Schemata
