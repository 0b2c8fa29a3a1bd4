import Schemata.Diagnostic.Basic
import Schemata.Schema.Basic

set_option autoImplicit false

namespace Schemata

structure Slot where
  param : AttributeParam
  argument : Option Argument
deriving Repr, Inhabited

structure BindError where
  issue : AttributeIssue
  span : Span
deriving Repr, DecidableEq, Inhabited

def BindError.diagnostic (error : BindError) : Diagnostic := .error error.span (.attr error.issue)

structure Bound where
  param : AttributeParam
  argument : Argument
deriving Repr, Inhabited

def Bound.value (bound : Bound) : Expr := bound.argument.value

namespace Slot

def isOpen (slot : Slot) : Bool := slot.param.isPositional && slot.argument.isNone

/-- A named argument took the slot of a positional parameter. -/
def isClaimed (slot : Slot) : Bool :=
  slot.param.isPositional && slot.argument.any fun argument => argument.name?.isSome

def indexFor? (slots : List Slot) (argument : Argument) : Option Nat :=
  match argument.name? with
  | some name => slots.findIdx? fun slot => slot.param.name.name == name.name
  | none => slots.findIdx? isOpen

def missing (attr : String) (slots : List Slot) (argument : Argument) : BindError :=
  match argument.name? with
  | some name => ⟨.unknownParameter attr name.name, name.span⟩
  | none =>
      match slots.find? isClaimed with
      | some slot => ⟨.alreadyProvided attr slot.param.name.name, argument.span⟩
      | none => ⟨.unexpectedUnnamed attr, argument.span⟩

def place (attr : String) (slots : List Slot) (argument : Argument) :
    Except BindError (List Slot) :=
  match indexFor? slots argument with
  | none => .error (missing attr slots argument)
  | some index =>
      match slots[index]? with
      | some ⟨param, none⟩ => .ok (slots.set index ⟨param, some argument⟩)
      | some ⟨param, some _⟩ =>
          .error ⟨.alreadyProvided attr param.name.name, argument.span⟩
      | none => .error (missing attr slots argument)

def placeAll (attr : String) (slots : List Slot) : List Argument → List Slot × List BindError
  | [] => (slots, [])
  | argument :: rest =>
      match place attr slots argument with
      | .ok slots => placeAll attr slots rest
      | .error error =>
          let (slots, errors) := placeAll attr slots rest
          (slots, error :: errors)

def bound? (slot : Slot) : Option Bound := slot.argument.map fun argument => ⟨slot.param, argument⟩

def lack (applied : Attribute) (slot : Slot) : Option BindError :=
  if slot.argument.isNone && slot.param.isRequired then
    some ⟨.missingRequired applied.name.name slot.param.name.name, applied.span⟩
  else none

end Slot

namespace Attribute

def bind (decl : AttributeDecl) (applied : Attribute) : Except (List BindError) (List Bound) :=
  let (slots, errors) :=
    Slot.placeAll applied.name.name (decl.params.map fun param => ⟨param, none⟩) applied.arguments
  let errors := errors ++ slots.filterMap (Slot.lack applied)
  if errors.isEmpty then .ok (slots.filterMap Slot.bound?) else .error errors

end Attribute

def Bound.value? (bounds : List Bound) (param : String) : Option Expr :=
  (bounds.find? (·.param.name.name == param)).map Bound.value

structure FieldItem where
  field : Ident
  options : List (Ident × Expr)
deriving Repr, Inhabited

def Argument.options (arguments : List Argument) : List (Ident × Expr) :=
  arguments.filterMap fun argument => argument.name?.map fun name => (name, argument.value)

namespace Expr

def fieldItem? : Expr → Option FieldItem
  | .reference name _ => some ⟨name, []⟩
  | .call name arguments _ => some ⟨name, Argument.options arguments⟩
  | _ => none

def fieldItems : Expr → List FieldItem
  | .list items _ => items.filterMap fieldItem?
  | value => (fieldItem? value).toList

end Expr

end Schemata
