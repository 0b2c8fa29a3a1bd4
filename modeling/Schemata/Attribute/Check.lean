import Schemata.Attribute.Binding
import Schemata.Policy.Operation
import Schemata.Typing.Check

set_option autoImplicit false

namespace Schemata

inductive AttributeSite
  | field (owner : Model) (decorated : Field)
  | model (decl : Model)
  | detached
deriving Repr, Inhabited

namespace AttributeSite

def model? : AttributeSite → Option Model
  | .field owner _ => some owner
  | .model decl => some decl
  | .detached => none

def field? : AttributeSite → Option Field
  | .field _ decorated => some decorated
  | _ => none

def isField (site : AttributeSite) : Bool := site.field?.isSome

def scope (site : AttributeSite) : Scope := (site.model?.map Frame.record).toList

end AttributeSite

def notAssignable (applied : Attribute) (param : String) (span : Span) : Diagnostic :=
  .error span (.attr (.notAssignable applied.name.name param))

def ResolvedType.targetName? (type : ResolvedType) (isList : Bool) : Option String :=
  match type with
  | .model _ => some "ModelField"
  | .scalar kind => if isList then none else some (kind.name ++ "Field")
  | .enum _ => if isList then none else some "EnumField"
  | _ => none

def AttributeDecl.targets? (decl : AttributeDecl) : Option (List String) := do
  let restriction ← decl.restriction? "@@@targetField"
  let first ← restriction.arguments.head?
  match first.value with
  | .list items _ => some ((items.filterMap Expr.reference?).map Ident.name)
  | _ => none

namespace Schema

variable (schema : Schema)

def isApplicable (decl : AttributeDecl) (field : Field) : Bool :=
  match decl.targets? with
  | none => true
  | some targets =>
      ((schema.typeOf field).targetName? field.type.isList).any targets.contains

def isWholeNumber : Expr → Bool
  | .literal (.number text) _ => !text.toList.contains '.'
  | _ => false

def isSortOrder (value : Expr) : Bool :=
  value.reference?.any fun name =>
    (schema.symbols.enum? "SortOrder").any fun decl => (decl.member? name.name).isSome

def checkFieldOption (applied : Attribute) (argument : Argument) : List Diagnostic :=
  let value := argument.value
  match argument.name?.map Ident.name with
  | some "sort" =>
      reportIf (!schema.isSortOrder value) (notAssignable applied "sort" value.span)
  | some "length" =>
      reportIf (!isWholeNumber value) (notAssignable applied "length" value.span)
  | some other => [.error argument.span (.attr (.unexpectedOption other))]
  | none => [.error argument.span (.attr .unnamedOption)]

def fieldOptions : Expr → List Argument
  | .call _ arguments _ => arguments
  | _ => []

def checkFieldEntry (applied : Attribute) (param : String) (model : Model) (entry : Expr) :
    List Diagnostic :=
  match entry.fieldName? with
  | none => [notAssignable applied param entry.span]
  | some name =>
      reportIf (schema.field? model name.name).isNone (.unresolved .field name) ++
        (fieldOptions entry).flatMap (schema.checkFieldOption applied)

def fieldEntries? (param : AttributeParam) (value : Expr) : Option (List Expr) :=
  if param.type.isList then
    match value with
    | .list items _ => some items
    | _ => none
  else some [value]

def checkFieldReferences (model : Option Model) (applied : Attribute) (bound : Bound) :
    List Diagnostic :=
  let param := bound.param.name.name
  match fieldEntries? bound.param bound.value with
  | none => [notAssignable applied param bound.value.span]
  | some entries =>
      match model with
      | none => []
      | some model => entries.flatMap (schema.checkFieldEntry applied param model)

def contextType (site : AttributeSite) : ValueType :=
  match site.field? with
  | some field => .ofResolved (schema.typeOf field) field.type.isList
  | none => .any

def checkTyped (site : AttributeSite) (applied : Attribute) (bound : Bound)
    (expected : ValueType) : List Diagnostic :=
  let value := bound.value
  let checked := value.check schema false site.scope
  checked.diagnostics ++
    reportIf (!expected.assignable value.string?.isSome checked.value)
      (notAssignable applied bound.param.name.name value.span)

def checkValue (site : AttributeSite) (applied : Attribute) (bound : Bound) : List Diagnostic :=
  match bound.param.type.name with
  | .builtin .fieldReference => schema.checkFieldReferences site.model? applied bound
  | .builtin .transitiveFieldReference =>
      schema.checkFieldReferences
        (site.field?.bind fun field => (schema.typeOf field).model?) applied bound
  | .builtin .contextType => schema.checkTyped site applied bound (schema.contextType site)
  | _ => schema.checkTyped site applied bound (Typing.typeOfRef schema bound.param.type)

def checkOperations (site : AttributeSite) (applied : Attribute) (bounds : List Bound) :
    Checked Bool :=
  match Bound.value? bounds "operation" with
  | none => pure false
  | some value =>
      match value.string? with
      | none => ⟨false, [notAssignable applied "operation" value.span]⟩
      | some text =>
          match Operation.readList site.isField text with
          | .ok operations => pure (operations == [.update])
          | .error word =>
              ⟨false, [.error value.span (.attr (.invalidOperation word site.isField))]⟩

def checkCondition (future : Bool) (site : AttributeSite) (applied : Attribute)
    (bounds : List Bound) : List Diagnostic :=
  match Bound.value? bounds "condition" with
  | none => []
  | some condition =>
      let checked := condition.check schema future site.scope
      checked.diagnostics ++
        reportIf (!checked.value.isBooleanLike)
          (notAssignable applied "condition" condition.span)

def checkPolicy (site : AttributeSite) (applied : Attribute) (bounds : List Bound) :
    List Diagnostic :=
  let operations := checkOperations site applied bounds
  operations.diagnostics ++ schema.checkCondition operations.value site applied bounds

def isDiscriminator (field : Field) : Bool :=
  !field.type.isList &&
    match schema.typeOf field with
    | .scalar .string | .enum _ => true
    | _ => false

def checkDelegate (model : Model) (applied : Attribute) (bounds : List Bound) : List Diagnostic :=
  match Bound.value? bounds "discriminator" with
  | none => []
  | some value =>
      match value.reference? with
      | none => [notAssignable applied "discriminator" value.span]
      | some name =>
          match model.field? name.name with
          | some field =>
              reportIf (!schema.isDiscriminator field)
                (.error name.span (.attr (.discriminatorType name.name)))
          | none =>
              if (schema.field? model name.name).isSome then
                [.error name.span (.attr (.inheritedDiscriminator name.name model.name.name))]
              else [.unresolved .field name]

def policyAttributes : List String := ["@@allow", "@@deny", "@allow", "@deny"]

def checkBound (site : AttributeSite) (applied : Attribute) (bounds : List Bound) :
    List Diagnostic :=
  if policyAttributes.contains applied.name.name then schema.checkPolicy site applied bounds
  else if applied.name.name = "@@delegate" then
    match site.model? with
    | some model => schema.checkDelegate model applied bounds
    | none => []
  else bounds.flatMap (schema.checkValue site applied)

/-- Check one attribute. A name without a declaration is reported with the references. -/
def checkAttribute (site : AttributeSite) (applied : Attribute) : List Diagnostic :=
  match schema.symbols.attribute? applied.name.name with
  | none => []
  | some decl =>
      match applied.bind decl with
      | .error errors => errors.map BindError.diagnostic
      | .ok bounds =>
          if site.field?.all (schema.isApplicable decl) then schema.checkBound site applied bounds
          else [.error applied.name.span (.attr (.notApplicable applied.name.name))]

def checkModelAttributes (model : Model) : List Diagnostic :=
  (model.fields.flatMap fun field =>
    field.attributes.flatMap (schema.checkAttribute (.field model field))) ++
    model.attributes.flatMap (schema.checkAttribute (.model model))

def checkEnumAttributes (decl : EnumDecl) : List Diagnostic :=
  (decl.members.flatMap fun enumMember =>
    enumMember.attributes.flatMap (schema.checkAttribute .detached)) ++
    decl.attributes.flatMap (schema.checkAttribute .detached)

def checkAttributes : List Diagnostic :=
  schema.document.models.flatMap schema.checkModelAttributes ++
    schema.document.enums.flatMap schema.checkEnumAttributes ++
    schema.document.attributeDecls.flatMap fun decl =>
      decl.restrictions.flatMap (schema.checkAttribute .detached)

end Schema

end Schemata
