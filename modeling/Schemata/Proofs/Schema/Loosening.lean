import Mathlib.Data.List.Forall2
import Schemata.Proofs.Schema.Hierarchy
import Schemata.Schema.Scope

set_option autoImplicit false

namespace Schemata

theorem forall₂_modify {α : Type} {related : α → α → Prop} {change : α → α}
    (reflexive : ∀ value, related value value) (changed : ∀ value, related value (change value))
    (values : List α) : ∀ index, List.Forall₂ related values (values.modify index change) := by
  induction values with
  | nil => exact fun _ => by simp
  | cons value rest ih =>
    intro index
    cases index with
    | zero => exact .cons (changed value) (List.forall₂_same.2 fun other _ => reflexive other)
    | succ index => exact .cons (reflexive value) (ih index)

section

variable {α β : Type} {related : α → α → Prop} {values others : List α}

theorem map_of_forall₂ {read : α → β}
    (same : ∀ value other, related value other → read other = read value)
    (each : List.Forall₂ related values others) : others.map read = values.map read := by
  rw [eq_comm, ← List.forall₂_eq_eq_eq, List.forall₂_map_left_iff, List.forall₂_map_right_iff]
  exact each.imp fun value other here => (same value other here).symm

theorem filterMap_of_forall₂ {read : α → Option β}
    (same : ∀ value other, related value other → read other = read value)
    (each : List.Forall₂ related values others) :
    others.filterMap read = values.filterMap read := by
  have mapped := congrArg (List.filterMap id) (map_of_forall₂ same each)
  rwa [List.filterMap_map, List.filterMap_map] at mapped

theorem rel_getElem? (each : List.Forall₂ related values others) :
    ∀ index : Nat, Option.Rel related values[index]? others[index]? := by
  induction each with
  | nil => exact fun _ => .none
  | cons here _ ih =>
    intro index
    cases index with
    | zero => exact .some here
    | succ index => exact ih index

end

def FunctionParam.loosen (param : FunctionParam) : FunctionParam :=
  { param with type := { param.type with name := .builtin .any, isList := false } }

def FunctionDecl.loosen (decl : FunctionDecl) (index : Nat) : FunctionDecl :=
  { decl with params := decl.params.modify index FunctionParam.loosen }

def Declaration.loosen (index : Nat) : Declaration → Declaration
  | .function decl => .function (decl.loosen index)
  | other => other

/-- The document with one parameter of the function at a place loosened. -/
def Document.loosen (document : Document) (place index : Nat) : Document :=
  ⟨document.declarations.modify place (Declaration.loosen index)⟩

inductive FunctionParam.Eases : FunctionParam → FunctionParam → Prop
  | same (param : FunctionParam) : Eases param param
  | loosened (param : FunctionParam) : Eases param param.loosen

structure FunctionDecl.Eases (before after : FunctionDecl) : Prop where
  name : after.name = before.name
  params : List.Forall₂ FunctionParam.Eases before.params after.params
  result : after.result = before.result

inductive Declaration.Eases : Declaration → Declaration → Prop
  | same (declaration : Declaration) : Eases declaration declaration
  | function {before after : FunctionDecl} (eases : before.Eases after) :
      Eases (.function before) (.function after)

structure Symbol.Eases (before after : Symbol) : Prop where
  declaration : before.declaration.Eases after.declaration
  origin : after.origin = before.origin

/-- The schemas differ in parameters of functions, and in bodies, which the check does not read. -/
structure Schema.Eases (before after : Schema) : Prop where
  symbols : List.Forall₂ Symbol.Eases before.symbols.symbols after.symbols.symbols
  hierarchy : after.hierarchy = before.hierarchy

theorem FunctionParam.Eases.name {before after : FunctionParam} (eases : before.Eases after) :
    after.name = before.name := by
  cases eases <;> rfl

theorem FunctionParam.Eases.isOptional {before after : FunctionParam}
    (eases : before.Eases after) : after.type.isOptional = before.type.isOptional := by
  cases eases <;> rfl

theorem Declaration.Eases.name {before after : Declaration} (eases : before.Eases after) :
    after.name = before.name := by
  cases eases with
  | same => rfl
  | function eases => exact eases.name

theorem FunctionDecl.Eases.refl (decl : FunctionDecl) : decl.Eases decl :=
  ⟨rfl, List.forall₂_same.2 fun param _ => .same param, rfl⟩

theorem FunctionDecl.eases_loosen (decl : FunctionDecl) (index : Nat) :
    decl.Eases (decl.loosen index) :=
  ⟨rfl, forall₂_modify .same .loosened decl.params index, rfl⟩

theorem Declaration.eases_loosen (index : Nat) (declaration : Declaration) :
    declaration.Eases (declaration.loosen index) := by
  cases declaration with
  | function decl => exact .function (decl.eases_loosen index)
  | _ => exact .same _

namespace SymbolTable

theorem rel_find? {symbols others : List Symbol} (eases : List.Forall₂ Symbol.Eases symbols others)
    (name : String) : Option.Rel Symbol.Eases (find? symbols name) (find? others name) := by
  induction eases with
  | nil => exact .none
  | @cons symbol other rest others here _ ih =>
    have named : other.name = symbol.name := by rw [Symbol.name, here.declaration.name, Symbol.name]
    unfold find? at ih ⊢
    rw [List.find?_cons, List.find?_cons, named]
    cases symbol.name == name with
    | true => exact .some here
    | false => exact ih

theorem forall₂_extend {declarations others : List Declaration}
    (eases : List.Forall₂ Declaration.Eases declarations others) :
    ∀ {symbols more : List Symbol}, List.Forall₂ Symbol.Eases symbols more →
      List.Forall₂ Symbol.Eases (extend symbols declarations).1 (extend more others).1 := by
  induction eases with
  | nil => exact fun related => related
  | @cons declaration other rest others here _ ih =>
    intro symbols more related
    have found := rel_find? related declaration.name.name
    rw [extend, extend, here.name]
    revert found
    generalize find? symbols declaration.name.name = first
    generalize find? more declaration.name.name = second
    rintro (@⟨⟨_, origin⟩, ⟨_, _⟩, _, same⟩ | _)
    · -- A declaration whose name is taken adds nothing.
      cases same
      cases origin <;> exact ih related
    · exact ih (List.rel_append related (.cons ⟨here, rfl⟩ .nil))

variable {before after : SymbolTable}
  (eases : List.Forall₂ Symbol.Eases before.symbols after.symbols)

include eases

theorem rel_declaration? (name : String) :
    Option.Rel Declaration.Eases (before.declaration? name) (after.declaration? name) := by
  have found := rel_find? eases name
  unfold declaration? symbol?
  generalize find? before.symbols name = first at found ⊢
  generalize find? after.symbols name = second at found ⊢
  cases found with
  | none => exact .none
  | some related => exact .some related.declaration

theorem rel_function? (name : String) :
    Option.Rel FunctionDecl.Eases (before.function? name) (after.function? name) := by
  have found := rel_declaration? eases name
  unfold function?
  generalize before.declaration? name = first at found ⊢
  generalize after.declaration? name = second at found ⊢
  cases found with
  | none => exact .none
  | @some declaration _ related =>
    cases related with
    | same =>
      cases declaration with
      | function decl => exact .some (.refl decl)
      | _ => exact .none
    | function related => exact .some related

theorem model?_of_eases (name : String) : after.model? name = before.model? name := by
  have found := rel_declaration? eases name
  unfold SymbolTable.model?
  generalize before.declaration? name = first at found ⊢
  generalize after.declaration? name = second at found ⊢
  cases found with
  | none => rfl
  | some related => cases related <;> rfl

theorem resolve_of_eases (type : TypeRef) : after.resolve type = before.resolve type := by
  unfold resolve
  cases type.name with
  | scalar | builtin | unsupported => rfl
  | named name =>
    have found := rel_declaration? eases name.name
    simp only
    generalize before.declaration? name.name = first at found ⊢
    generalize after.declaration? name.name = second at found ⊢
    cases found with
    | none => rfl
    | some related => cases related <;> rfl

theorem enumMember?_of_eases (name : String) :
    after.enumMember? name = before.enumMember? name := by
  have enums (origin : Origin) : after.enumsOf origin = before.enumsOf origin := by
    refine filterMap_of_forall₂ (fun ⟨_, _⟩ ⟨_, _⟩ ⟨related, sameOrigin⟩ => ?_) eases
    cases sameOrigin
    cases related <;> rfl
  rw [enumMember?, enumMember?, SymbolTable.enums, SymbolTable.enums, enums, enums]

end SymbolTable

namespace Schema.Eases

variable {before after : Schema} (eases : before.Eases after)

include eases

theorem fields (model : Model) : after.fields model = before.fields model := by
  rw [Schema.fields, Schema.fields, eases.hierarchy]

theorem field? (model : Model) (name : String) :
    after.field? model name = before.field? model name := by
  rw [Schema.field?, Schema.field?, eases.fields]

end Schema.Eases

theorem Document.eases_loosen (document : Document) (place index : Nat) :
    (Schema.ofDocument document).Eases (.ofDocument (document.loosen place index)) := by
  have declarations := forall₂_modify Declaration.Eases.same (Declaration.eases_loosen index)
    document.declarations place
  have models : (document.loosen place index).models = document.models :=
    filterMap_of_forall₂ (fun declaration other related => by cases related <;> rfl) declarations
  refine ⟨?_, ?_⟩
  · exact SymbolTable.forall₂_extend declarations
      (List.forall₂_same.2 fun symbol _ => ⟨.same _, rfl⟩)
  · rw [Schema.hierarchy_ofDocument, Schema.hierarchy_ofDocument, models]

inductive Frame.Eases : Frame → Frame → Prop
  | same (frame : Frame) : Eases frame frame
  | function {params others : List FunctionParam}
      (related : List.Forall₂ FunctionParam.Eases params others) :
      Eases (.function params) (.function others)

inductive Binding.Eases : Option Binding → Option Binding → Prop
  | same (binding? : Option Binding) : Eases binding? binding?
  | param {frame index : Nat} {param other : FunctionParam} (related : param.Eases other) :
      Eases (some (.param frame index param)) (some (.param frame index other))

theorem Binding.Eases.or {first second outer inner : Option Binding} (head : Eases first second)
    (tail : Eases outer inner) : Eases (first.or outer) (second.or inner) := by
  cases head with
  | same =>
    cases first with
    | none => exact tail
    | some => exact .same _
  | param related => exact .param related

theorem Frame.Eases.model? {frame other : Frame} (eases : frame.Eases other) :
    other.model? = frame.model? := by
  cases eases <;> rfl

theorem findIdx?_params {params others : List FunctionParam} (name : String)
    (each : List.Forall₂ FunctionParam.Eases params others) :
    others.findIdx? (·.name.name == name) = params.findIdx? (·.name.name == name) := by
  have names : others.map (·.name.name) = params.map (·.name.name) :=
    map_of_forall₂ (fun param other here => by rw [here.name]) each
  have found := congrArg (List.findIdx? (· == name)) names
  rwa [List.findIdx?_map, List.findIdx?_map] at found

namespace Scope

variable {before after : Schema} {scope other : Scope}

theorem valueDepth_of_eases (scopes : List.Forall₂ Frame.Eases scope other) :
    other.valueDepth = scope.valueDepth := by
  induction scopes with
  | nil => rfl
  | cons here _ ih => rw [valueDepth, valueDepth, ih, here.model?]

theorem this?_of_eases (scopes : List.Forall₂ Frame.Eases scope other) :
    other.this? = scope.this? := by
  induction scopes with
  | nil => rfl
  | cons here rest ih =>
    rw [this?, this?, here.model?, ih, rest.length_eq, valueDepth_of_eases rest]

theorem record?_of_eases (scopes : List.Forall₂ Frame.Eases scope other) :
    other.record? = scope.record? := by
  induction scopes with
  | nil => rfl
  | @cons _ _ outer _ here _ ih =>
    unfold record?
    rw [ih]
    cases here with
    | same => rfl
    | function => cases record? outer <;> rfl

theorem eases_lookup? (schemas : before.Eases after) (name : String)
    (scopes : List.Forall₂ Frame.Eases scope other) :
    Binding.Eases (scope.lookup? before name) (other.lookup? after name) := by
  induction scopes with
  | nil =>
    rw [lookup?, lookup?, SymbolTable.enumMember?_of_eases schemas.symbols]
    exact .same _
  | @cons frame other outer outside here rest ih =>
    refine .or ?_ ih
    cases here with
    | same =>
      cases frame with
      | record model | element model =>
        rw [lookupIn?, lookupIn?, schemas.field?, rest.length_eq, valueDepth_of_eases rest]
        exact .same _
      | function params =>
        rw [lookupIn?, lookupIn?, rest.length_eq]
        exact .same _
    | @function params others related =>
      rw [lookupIn?, lookupIn?, findIdx?_params name related, ← rest.length_eq]
      cases params.findIdx? (·.name.name == name) with
      | none => exact .same _
      | some index =>
        have found := rel_getElem? related index
        simp only [Option.bind_eq_bind, Option.bind_some]
        generalize params[index]? = first at found ⊢
        generalize others[index]? = second at found ⊢
        cases found with
        | none => exact .same _
        | some here => exact .param here

end Scope

end Schemata
