import Schemata.Diagnostic.Checked
import Schemata.Syntax.Document

/-!
# Hierarchies of models

A model takes over the members of its bases. A base is abstract, and then mixed in, or marked with
`@@delegate`; every other base is illegal and gives nothing. Models are known by their place in the
document, and a name means the first model of that name.
-/

set_option autoImplicit false

namespace Schemata

inductive BaseKind
  | mixin
  | delegate
deriving Repr, DecidableEq, Inhabited

structure InheritanceEdge where
  model : String
  base : String
  kind : BaseKind
deriving Repr, DecidableEq, Inhabited

/-- A base by its place among the models. An illegal base has no kind. -/
structure Base where
  index : Nat
  kind : Option BaseKind
deriving Repr, DecidableEq, Inhabited

structure VisibleField where
  field : Field
  declaredIn : String
  inherited : Bool
  /-- A delegate lies between the model and the declaration. -/
  viaDelegate : Bool
deriving Repr, Inhabited

def VisibleField.name (visible : VisibleField) : String := visible.field.name.name

structure VisibleAttribute where
  applied : Attribute
  declaredIn : String
deriving Repr, Inhabited

def VisibleAttribute.name (visible : VisibleAttribute) : String := visible.applied.name.name

def Model.isDelegate (model : Model) : Bool := model.hasAttribute "@@delegate"

def Model.baseKind? (model : Model) : Option BaseKind :=
  if model.isAbstract then some .mixin
  else if model.isDelegate then some .delegate
  else none

namespace Hierarchy

def indexOf? (models : List Model) (name : String) : Option Nat :=
  models.findIdx? (·.name.name == name)

def basesOf (models : List Model) (model : Model) : List Base :=
  model.bases.filterMap fun name => do
    let index ← indexOf? models name.name
    let base ← models[index]?
    some ⟨index, base.baseKind?⟩

def basesAt (models : List Model) (index : Nat) : List Base :=
  match models[index]? with
  | some model => basesOf models model
  | none => []

def edgesOf (models : List Model) (model : Model) : List InheritanceEdge :=
  (basesOf models model).filterMap fun base => do
    let kind ← base.kind
    let target ← models[base.index]?
    some ⟨model.name.name, target.name.name, kind⟩

def checkBases (models : List Model) (model : Model) : List Diagnostic :=
  let illegal (name : Ident) : Bool :=
    match models.find? (·.name.name == name.name) with
    | some base => base.baseKind?.isNone
    | none => false
  let delegates := (basesOf models model).countP (·.kind == some .delegate)
  (model.bases.filter illegal).map (fun name =>
      .error name.span (.inheritance (.illegalBase name.name))) ++
    reportIf (1 < delegates) (.error model.name.span (.inheritance .severalDelegates))

/--
Walk depth first from a model at the end of `path`. The walk ends with the path to the first model
that the path holds already, or with all models that it has left behind. A path has no more models
than the document, so that number of steps is fuel enough.
-/
def walk (children : Nat → List Nat) :
    Nat → List Nat → List Nat → Nat → Except (List Nat) (List Nat)
  | 0, _, finished, _ => .ok finished
  | fuel + 1, path, finished, node => do
      let finished ← (children node).foldlM
        (fun finished child =>
          if child ∈ path then .error (path ++ [child])
          else if child ∈ finished then .ok finished
          else walk children fuel (path ++ [child]) finished child)
        finished
      .ok (node :: finished)

def cycleFrom? (models : List Model) (root : Nat) : Option (List Nat) :=
  let children (index : Nat) := (basesAt models index).map Base.index
  match walk children (models.length + 1) [root] [] root with
  | .error path => some path
  | .ok _ => none

def nameAt (models : List Model) (index : Nat) : String :=
  (models[index]?.map fun model => model.name.name).getD ""

def checkCycles (models : List Model) : List Diagnostic :=
  models.zipIdx.flatMap fun (model, root) =>
    match cycleFrom? models root with
    | some path =>
        [.error model.name.span (.inheritance (.cycle (path.map (nameAt models))))]
    | none => []

structure Ancestor where
  index : Nat
  viaDelegate : Bool
deriving Repr, DecidableEq, Inhabited

/-- The ancestors that were gathered so far, and all models that were looked at. -/
structure Lineage where
  visited : List Nat
  ancestors : List Ancestor
deriving Repr, Inhabited

/--
Gather the ancestors through the bases of a model, every base behind its own bases. A base that was
looked at before is passed over. Each step looks at a new model, so the number of models is fuel
enough.
-/
def gather (models : List Model) : Nat → Bool → Lineage → Nat → Lineage
  | 0, _, lineage, _ => lineage
  | fuel + 1, viaDelegate, lineage, node =>
      (basesAt models node).foldl
        (fun lineage base =>
          if base.index ∈ lineage.visited then lineage
          else
            let lineage := { lineage with visited := base.index :: lineage.visited }
            match base.kind with
            | none => lineage
            | some kind =>
                let through := viaDelegate || kind == .delegate
                let lineage := gather models fuel through lineage base.index
                { lineage with ancestors := lineage.ancestors ++ [⟨base.index, through⟩] })
        lineage

def ancestorsAt (models : List Model) (index : Nat) : List Ancestor :=
  (gather models (models.length + 1) false ⟨[index], []⟩ index).ancestors

/-- Attributes that concern the declaring model alone. -/
def ownAttributes : List String := ["@@delegate", "@@map"]

def inheritedFields (models : List Model) (ancestor : Ancestor) : List VisibleField :=
  match models[ancestor.index]? with
  | some base =>
      base.fields.map fun field => ⟨field, base.name.name, true, ancestor.viaDelegate⟩
  | none => []

def inheritedAttributes (models : List Model) (ancestor : Ancestor) : List VisibleAttribute :=
  match models[ancestor.index]? with
  | some base =>
      (base.attributes.filter fun applied => !ownAttributes.contains applied.name.name).map
        fun applied => ⟨applied, base.name.name⟩
  | none => []

def reachingFields (models : List Model) (index : Nat) (model : Model) : List VisibleField :=
  (ancestorsAt models index).flatMap (inheritedFields models) ++
    model.fields.map fun field => ⟨field, model.name.name, false, false⟩

def visibleAttributes (models : List Model) (index : Nat) (model : Model) :
    List VisibleAttribute :=
  (ancestorsAt models index).flatMap (inheritedAttributes models) ++
    model.attributes.map fun applied => ⟨applied, model.name.name⟩

/--
Report a field whose name `previous` has taken. Two fields of one base were reported at that base.
-/
def clash (model : Model) (previous next : VisibleField) : List Diagnostic :=
  let span := next.field.name.span
  if !next.inherited then
    if previous.inherited then
      [.error span (.structural (.alreadyInherited next.name previous.declaredIn))]
    else [.error span (.structural (.duplicateName next.name))]
  else if previous.declaredIn == next.declaredIn then []
  else
    [.error model.name.span
      (.structural (.inheritedTwice next.name previous.declaredIn next.declaredIn))]

def dedupe (model : Model) (kept : List VisibleField) :
    List VisibleField → Checked (List VisibleField)
  | [] => ⟨kept, []⟩
  | next :: rest =>
      match kept.find? (·.name == next.name) with
      | none => dedupe model (kept ++ [next]) rest
      | some previous =>
          let others := dedupe model kept rest
          ⟨others.value, clash model previous next ++ others.diagnostics⟩

def visibleFields (models : List Model) (index : Nat) (model : Model) :
    Checked (List VisibleField) :=
  dedupe model [] (reachingFields models index model)

end Hierarchy

structure ModelView where
  model : Model
  fields : List VisibleField
  attributes : List VisibleAttribute
  delegate : Option Model
deriving Repr, Inhabited

structure Hierarchy where
  views : List ModelView
  edges : List InheritanceEdge
deriving Repr, Inhabited

namespace Hierarchy

def delegateOf (models : List Model) (index : Nat) : Option Model :=
  ((basesAt models index).find? (·.kind == some .delegate)).bind fun base => models[base.index]?

def viewAt (models : List Model) (index : Nat) (model : Model) : ModelView :=
  ⟨model, (visibleFields models index model).value, visibleAttributes models index model,
    delegateOf models index⟩

def ofModels (models : List Model) : Hierarchy :=
  ⟨models.zipIdx.map fun (model, index) => viewAt models index model,
    models.flatMap (edgesOf models)⟩

def check (models : List Model) : List Diagnostic :=
  models.flatMap (checkBases models) ++ checkCycles models ++
    models.zipIdx.flatMap fun (model, index) => (visibleFields models index model).diagnostics

variable (hierarchy : Hierarchy)

def models : List Model := hierarchy.views.map ModelView.model

def view? (name : String) : Option ModelView :=
  hierarchy.views.find? (·.model.name.name == name)

def model? (name : String) : Option Model := (hierarchy.view? name).map ModelView.model

def fields (name : String) : List VisibleField :=
  ((hierarchy.view? name).map ModelView.fields).getD []

def attributes (name : String) : List VisibleAttribute :=
  ((hierarchy.view? name).map ModelView.attributes).getD []

def delegate? (name : String) : Option Model :=
  (hierarchy.view? name).bind ModelView.delegate

end Hierarchy

end Schemata
