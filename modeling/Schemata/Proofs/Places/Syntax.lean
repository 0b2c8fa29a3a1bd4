import Schemata.Attribute.Binding
import Schemata.Proofs.Syntax.ExprInduction
import Schemata.Schema.Basic
import Schemata.Syntax.Printer

set_option autoImplicit false

namespace Schemata

theorem filterMap_erase {α β γ δ : Type} {items : List α} {outer : α → β} {inner : γ → δ}
    {pick : α → Option γ} {pick' : β → Option δ}
    (same : ∀ item, pick' (outer item) = (pick item).map inner) :
    (items.map outer).filterMap pick' = (items.filterMap pick).map inner := by
  rw [List.filterMap_map, List.map_filterMap]
  exact congrArg (List.filterMap · items) (funext same)

namespace Ident

variable (ident : Ident)

@[simp] theorem name_erase : ident.erase.name = ident.name := rfl

@[simp] theorem span_erase : ident.erase.span = Span.zero := rfl

end Ident

namespace TypeRef

variable (type : TypeRef)

@[simp] theorem name_erase : type.erase.name = type.name.erase := rfl

@[simp] theorem isList_erase : type.erase.isList = type.isList := rfl

@[simp] theorem isOptional_erase : type.erase.isOptional = type.isOptional := rfl

@[simp] theorem span_erase : type.erase.span = Span.zero := rfl

end TypeRef

namespace Argument

variable (argument : Argument)

@[simp] theorem value_erase : argument.erase.value = argument.value.erase := by
  cases argument <;> rfl

@[simp] theorem name?_erase : argument.erase.name? = argument.name?.map Ident.erase := by
  cases argument <;> rfl

end Argument

namespace Expr

variable (expr : Expr)

@[simp] theorem erase_list (items : List Expr) (span : Span) :
    (Expr.list items span).erase = .list (items.map erase) Span.zero := by
  rw [erase, eraseAll_eq_map]

@[simp] theorem erase_call (function : Ident) (arguments : List Argument) (span : Span) :
    (Expr.call function arguments span).erase =
      .call function.erase (arguments.map Argument.erase) Span.zero := by
  rw [erase, Argument.eraseAll_eq_map]

@[simp] theorem span_erase : expr.erase.span = Span.zero := by cases expr <;> rfl

@[simp] theorem string?_erase : expr.erase.string? = expr.string? := by
  cases expr with
  | literal value span => cases value <;> rfl
  | _ => rfl

@[simp] theorem reference?_erase : expr.erase.reference? = expr.reference?.map Ident.erase := by
  cases expr <;> rfl

@[simp] theorem fieldName?_erase : expr.erase.fieldName? = expr.fieldName?.map Ident.erase := by
  cases expr <;> rfl

@[simp] theorem isNull_erase : expr.erase.isNull = expr.isNull := by
  cases expr with
  | literal value span => cases value <;> rfl
  | _ => rfl

end Expr

@[simp] theorem Argument.span_erase (argument : Argument) : argument.erase.span = Span.zero := by
  cases argument with
  | positional value => exact value.span_erase
  | named name value =>
    rw [erase, span, value.span_erase]
    rfl

namespace Attribute

variable (applied : Attribute)

@[simp] theorem name_erase : applied.erase.name = applied.name.erase := rfl

@[simp] theorem arguments_erase : applied.erase.arguments = applied.arguments.map Argument.erase :=
  rfl

@[simp] theorem span_erase : applied.erase.span = Span.zero := rfl

@[simp] theorem find?_erase (attributes : List Attribute) (name : String) :
    find? (attributes.map erase) name = (find? attributes name).map erase :=
  List.find?_map

@[simp] theorem fieldNames_erase : applied.erase.fieldNames = applied.fieldNames := by
  unfold fieldNames
  rw [arguments_erase, List.head?_map, Option.map_map]
  cases first : applied.arguments.head? with
  | none => rfl
  | some argument =>
    simp only [Option.map_some, Function.comp_apply, Argument.value_erase]
    cases argument.value with
    | list items span =>
      simp [List.filterMap_map, Function.comp_def, List.map_filterMap]
    | _ => rfl

end Attribute

namespace ConfigEntry

variable (entry : ConfigEntry)

@[simp] theorem name_erase : entry.erase.name = entry.name.erase := rfl

@[simp] theorem value_erase : entry.erase.value = entry.value.erase := rfl

end ConfigEntry

namespace ConfigBlock

variable (block : ConfigBlock)

@[simp] theorem name_erase : block.erase.name = block.name.erase := rfl

@[simp] theorem entries_erase : block.erase.entries = block.entries.map ConfigEntry.erase := rfl

@[simp] theorem entry?_erase (name : String) :
    block.erase.entry? name = (block.entry? name).map ConfigEntry.erase :=
  List.find?_map

end ConfigBlock

namespace EnumMember

variable (enumMember : EnumMember)

@[simp] theorem name_erase : enumMember.erase.name = enumMember.name.erase := rfl

@[simp] theorem attributes_erase :
    enumMember.erase.attributes = enumMember.attributes.map Attribute.erase := rfl

end EnumMember

namespace EnumDecl

variable (decl : EnumDecl)

@[simp] theorem name_erase : decl.erase.name = decl.name.erase := rfl

@[simp] theorem members_erase : decl.erase.members = decl.members.map EnumMember.erase := rfl

@[simp] theorem attributes_erase : decl.erase.attributes = decl.attributes.map Attribute.erase := rfl

@[simp] theorem member?_erase (name : String) :
    decl.erase.member? name = (decl.member? name).map EnumMember.erase :=
  List.find?_map

end EnumDecl

namespace Field

variable (field : Field)

@[simp] theorem name_erase : field.erase.name = field.name.erase := rfl

@[simp] theorem type_erase : field.erase.type = field.type.erase := rfl

@[simp] theorem attributes_erase :
    field.erase.attributes = field.attributes.map Attribute.erase := rfl

@[simp] theorem attribute?_erase (name : String) :
    field.erase.attribute? name = (field.attribute? name).map Attribute.erase :=
  Attribute.find?_erase _ _

@[simp] theorem hasAttribute_erase (name : String) :
    field.erase.hasAttribute name = field.hasAttribute name := by
  simp [hasAttribute]

end Field

namespace Model

variable (model : Model)

@[simp] theorem name_erase : model.erase.name = model.name.erase := rfl

@[simp] theorem isAbstract_erase : model.erase.isAbstract = model.isAbstract := rfl

@[simp] theorem bases_erase : model.erase.bases = model.bases.map Ident.erase := rfl

@[simp] theorem fields_erase : model.erase.fields = model.fields.map Field.erase := rfl

@[simp] theorem attributes_erase :
    model.erase.attributes = model.attributes.map Attribute.erase := rfl

@[simp] theorem field?_erase (name : String) :
    model.erase.field? name = (model.field? name).map Field.erase :=
  List.find?_map

@[simp] theorem hasAttribute_erase (name : String) :
    model.erase.hasAttribute name = model.hasAttribute name := by
  simp [hasAttribute, List.any_map, Function.comp_def]

end Model

namespace FunctionParam

variable (param : FunctionParam)

@[simp] theorem name_erase : param.erase.name = param.name.erase := rfl

@[simp] theorem type_erase : param.erase.type = param.type.erase := rfl

end FunctionParam

namespace FunctionDecl

variable (decl : FunctionDecl)

@[simp] theorem name_erase : decl.erase.name = decl.name.erase := rfl

@[simp] theorem params_erase : decl.erase.params = decl.params.map FunctionParam.erase := rfl

@[simp] theorem result_erase : decl.erase.result = decl.result.erase := rfl

@[simp] theorem body_erase : decl.erase.body = decl.body.map Expr.erase := rfl

end FunctionDecl

namespace AttributeParam

variable (param : AttributeParam)

@[simp] theorem name_erase : param.erase.name = param.name.erase := rfl

@[simp] theorem type_erase : param.erase.type = param.type.erase := rfl

@[simp] theorem isPositional_erase : param.erase.isPositional = param.isPositional := rfl

@[simp] theorem isRequired_erase : param.erase.isRequired = param.isRequired := rfl

end AttributeParam

namespace AttributeDecl

variable (decl : AttributeDecl)

@[simp] theorem params_erase : decl.erase.params = decl.params.map AttributeParam.erase := rfl

@[simp] theorem restrictions_erase :
    decl.erase.restrictions = decl.restrictions.map Attribute.erase := rfl

@[simp] theorem restriction?_erase (name : String) :
    decl.erase.restriction? name = (decl.restriction? name).map Attribute.erase :=
  Attribute.find?_erase _ _

end AttributeDecl

@[simp] theorem Declaration.name_erase (declaration : Declaration) :
    declaration.erase.name = declaration.name.erase := by
  cases declaration <;> rfl

namespace Document

variable (document : Document)

@[simp] theorem declarations_erase :
    document.erase.declarations = document.declarations.map Declaration.erase := rfl

@[simp] theorem models_erase : document.erase.models = document.models.map Model.erase :=
  filterMap_erase fun declaration => by cases declaration <;> rfl

@[simp] theorem enums_erase : document.erase.enums = document.enums.map EnumDecl.erase :=
  filterMap_erase fun declaration => by cases declaration <;> rfl

@[simp] theorem functions_erase :
    document.erase.functions = document.functions.map FunctionDecl.erase :=
  filterMap_erase fun declaration => by cases declaration <;> rfl

@[simp] theorem attributeDecls_erase :
    document.erase.attributeDecls = document.attributeDecls.map AttributeDecl.erase :=
  filterMap_erase fun declaration => by cases declaration <;> rfl

end Document

theorem Expr.printAt_erase (expr : Expr) (binding : Nat) :
    expr.erase.printAt binding = expr.printAt binding := by
  induction expr using Expr.inductionOn generalizing binding with
  | literal value span => rfl
  | this span => rfl
  | reference name span => rfl
  | access object name span ih => simp [erase, printAt, ih]
  | unary op operand span ih => simp [erase, printAt, ih]
  | binary op left right span first second => simp [erase, printAt, first, second]
  | call function arguments span ih =>
    have parts : (arguments.map Argument.erase).map Argument.print = arguments.map Argument.print := by
      rw [List.map_map]
      refine List.map_congr_left fun argument member => ?_
      cases argument with
      | positional value => exact ih _ member 0
      | named name value => exact congrArg (name.name ++ ": " ++ ·) (ih _ member 0)
    simp [printAt, Argument.printAll_eq_map, parts]
  | list items span ih =>
    have parts : (items.map erase).map (printAt 0) = items.map (printAt 0) := by
      rw [List.map_map]
      exact List.map_congr_left fun item member => ih item member 0
    simp [printAt, printAll_eq_map, parts]
  | quantified collection quantifier condition span ih body => simp [erase, printAt, ih, body]

@[simp] theorem Expr.print_erase (expr : Expr) : expr.erase.print = expr.print :=
  expr.printAt_erase 0

@[simp] theorem Argument.print_erase (argument : Argument) :
    argument.erase.print = argument.print := by
  cases argument with
  | positional value => exact value.print_erase
  | named name value => exact congrArg (name.name ++ ": " ++ ·) value.print_erase

@[simp] theorem TypeRef.print_erase (type : TypeRef) : type.erase.print = type.print := by
  rcases type with ⟨name, isList, isOptional, span⟩
  cases name <;> rfl

namespace Attribute

@[simp] theorem print_erase (applied : Attribute) : applied.erase.print = applied.print := by
  simp [print, Function.comp_def]

@[simp] theorem printTrailing_erase (attributes : List Attribute) :
    printTrailing (attributes.map erase) = printTrailing attributes := by
  simp [printTrailing, Function.comp_def]

@[simp] theorem printBody_erase (size : Nat) (attributes : List Attribute) :
    printBody size (attributes.map erase) = printBody size attributes := by
  simp [printBody, Function.comp_def]

end Attribute

theorem ConfigBlock.print_erase (keyword : String) (block : ConfigBlock) :
    block.erase.print keyword = block.print keyword := by
  simp [print, Function.comp_def]

theorem EnumDecl.print_erase (decl : EnumDecl) : decl.erase.print = decl.print := by
  simp [print, Function.comp_def]

theorem Model.print_erase (model : Model) : model.erase.print = model.print := by
  simp only [print, name_erase, isAbstract_erase, bases_erase, fields_erase, attributes_erase,
    Attribute.printBody_erase, List.isEmpty_map, List.length_map, List.map_map, Function.comp_def,
    Ident.name_erase, Field.name_erase, Field.type_erase, Field.attributes_erase,
    TypeRef.print_erase, Attribute.printTrailing_erase]
  rfl

theorem FunctionDecl.print_erase (decl : FunctionDecl) : decl.erase.print = decl.print := by
  have params : (decl.params.map FunctionParam.erase).map FunctionParam.print =
      decl.params.map FunctionParam.print := by
    simp [FunctionParam.print, Function.comp_def]
  simp only [print, name_erase, Ident.name_erase, params_erase, params, result_erase,
    TypeRef.print_erase, body_erase]
  cases decl.body <;> simp

theorem AttributeDecl.print_erase (decl : AttributeDecl) : decl.erase.print = decl.print := by
  have params : (decl.params.map AttributeParam.erase).map AttributeParam.print =
      decl.params.map AttributeParam.print := by
    rw [List.map_map]
    refine List.map_congr_left fun param _ => ?_
    simp only [Function.comp_apply, AttributeParam.print, AttributeParam.name_erase,
      AttributeParam.type_erase, Ident.name_erase, TypeRef.print_erase]
    rfl
  rw [print, params_erase, params, restrictions_erase, Attribute.printTrailing_erase]
  rfl

theorem Declaration.print_erase (declaration : Declaration) :
    declaration.erase.print = declaration.print := by
  cases declaration with
  | dataSource block => exact block.print_erase "datasource"
  | plugin block => exact block.print_erase "plugin"
  | enum decl => exact decl.print_erase
  | model decl => exact decl.print_erase
  | function decl => exact decl.print_erase
  | attr decl => exact decl.print_erase

theorem Document.print_erase (document : Document) : document.erase.print = document.print := by
  rcases document with ⟨declarations⟩
  have all (declarations : List Declaration) :
      Declaration.printAll (declarations.map Declaration.erase) =
        Declaration.printAll declarations := by
    induction declarations with
    | nil => rfl
    | cons first others ih =>
      cases others with
      | nil => exact first.print_erase
      | cons second others =>
        have behind : first.erase.print ++ "\n" ++
            Declaration.printAll ((second :: others).map Declaration.erase) =
              first.print ++ "\n" ++ Declaration.printAll (second :: others) := by
          rw [ih, first.print_erase]
        exact behind
  exact all declarations

end Schemata
