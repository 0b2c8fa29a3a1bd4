import Schemata.Schema.Basic

/-!
# Scopes

The frames that are open around an expression, innermost first. A name means the parameter or field
of the innermost frame that has it, and else a member of an enum. Frames and the values that they
carry are counted from the outermost one.
-/

set_option autoImplicit false

namespace Schemata

inductive Frame
  | record (model : Model)
  | element (model : Model)
  /-- The parameters of a function, which carry no value of their own. -/
  | function (params : List FunctionParam)
deriving Repr, Inhabited

def Frame.model? : Frame → Option Model
  | .record model | .element model => some model
  | .function _ => none

inductive Binding
  | param (frame : Nat) (index : Nat) (param : FunctionParam)
  | field (frame : Nat) (valueScope : Nat) (model : Model) (field : Field)
  | enumMember (decl : EnumDecl) (enumMember : EnumMember)
deriving Repr, Inhabited

abbrev Scope := List Frame

namespace Scope

def depth (scope : Scope) : Nat := scope.length

def valueDepth : Scope → Nat
  | [] => 0
  | frame :: outer => valueDepth outer + if frame.model?.isSome then 1 else 0

/-- The innermost frame with a value, as its place, the place of its value, and its model. -/
def this? : Scope → Option (Nat × Nat × Model)
  | [] => none
  | frame :: outer =>
      match frame.model? with
      | some model => some (outer.length, valueDepth outer, model)
      | none => this? outer

def record? : Scope → Option Model
  | [] => none
  | frame :: outer =>
      match record? outer, frame with
      | some model, _ => some model
      | none, .record model => some model
      | none, _ => none

def lookupIn? (schema : Schema) (name : String) (outer : Scope) : Frame → Option Binding
  | .function params => do
      let index ← params.findIdx? (·.name.name == name)
      let param ← params[index]?
      some (.param outer.length index param)
  | .record model | .element model =>
      (schema.field? model name).map fun visible =>
        .field outer.length (valueDepth outer) model visible.field

def lookup? (schema : Schema) (name : String) : Scope → Option Binding
  | [] =>
      (schema.symbols.enumMember? name).map fun (decl, enumMember) => .enumMember decl enumMember
  | frame :: outer => (lookupIn? schema name outer frame).or (lookup? schema name outer)

theorem valueScope_lt_of_lookup? {schema : Schema} {name : String} {scope : Scope}
    {frame valueScope : Nat} {model : Model} {field : Field}
    (found : lookup? schema name scope = some (.field frame valueScope model field)) :
    valueScope < valueDepth scope := by
  induction scope with
  | nil => simp [lookup?] at found
  | cons first outer ih =>
      rw [lookup?, Option.or_eq_some_iff] at found
      rcases found with here | ⟨_, outside⟩
      · cases first with
        | function params =>
            simp only [lookupIn?, Option.bind_eq_bind, Option.bind_eq_some_iff] at here
            obtain ⟨_, _, _, _, wrong⟩ := here
            simp at wrong
        | record own | element own =>
            simp only [lookupIn?, Option.map_eq_some_iff] at here
            obtain ⟨_, _, same⟩ := here
            cases same
            simp [valueDepth, Frame.model?]
      · exact Nat.lt_of_lt_of_le (ih outside) (by simp [valueDepth])

end Scope

end Schemata
