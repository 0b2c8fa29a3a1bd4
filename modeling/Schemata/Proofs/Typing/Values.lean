import Schemata.Proofs.Typing.Standard

set_option autoImplicit false

namespace Schemata

def Scalar.isTextual : Scalar → Bool
  | .string | .dateTime | .bytes => true
  | _ => false

/--
A value is of a type. The members of a record that fields declare are of the types of these, as far
as they are there. Nothing is known of a field that is unsupported.
-/
inductive Json.HasType (schema : Schema) : ValueType → Json → Prop
  | boolean (value : Bool) : HasType schema ⟨.scalar .boolean, false⟩ (.bool value)
  | int {kind : Scalar} (numeric : kind.isNumeric = true) (value : Int) :
      HasType schema ⟨.scalar kind, false⟩ (.int value)
  | float {kind : Scalar} (numeric : kind.isNumeric = true) (value : Float) :
      HasType schema ⟨.scalar kind, false⟩ (.float value)
  | text {kind : Scalar} (textual : kind.isTextual = true) (text : String) :
      HasType schema ⟨.scalar kind, false⟩ (.string text)
  | json (value : Json) : HasType schema ⟨.scalar .json, false⟩ value
  | enum (decl : EnumDecl) (text : String) : HasType schema ⟨.enum decl, false⟩ (.string text)
  | unsupported (isList : Bool) (value : Json) : HasType schema ⟨.unsupported, isList⟩ value
  | record {model : Model} {members : List (String × Json)}
      (each : ∀ visible ∈ schema.fields model, ∀ value,
        members.lookup visible.name = some value → value ≠ .null →
          HasType schema (schema.valueTypeOf visible.field) value) :
      HasType schema ⟨.model model, false⟩ (.object members)
  | list {kind : ValueKind} {items : List Json}
      (each : ∀ item ∈ items, HasType schema ⟨kind, false⟩ item) :
      HasType schema ⟨kind, true⟩ (.array items)

theorem Json.HasType.ofFields {schema : Schema} {model : Model} (fields : List Field)
    {members : List (String × Json)} (same : (schema.fields model).map VisibleField.field = fields)
    (each : ∀ field ∈ fields, ∀ value, members.lookup field.name.name = some value →
      value.HasType schema (schema.valueTypeOf field)) :
    (Json.object members).HasType schema (.model model) := by
  refine .record fun visible listed value found _ => ?_
  subst same
  exact each visible.field (List.mem_map_of_mem listed) value found

/-- The value is of the type, or missing. -/
def ValueType.Admits (schema : Schema) (type : ValueType) (value : Json) : Prop :=
  value = .null ∨ value.HasType schema type

namespace ValueType

variable {schema : Schema} {value : Json}

theorem admits_bool {truth : Bool} : ValueType.boolean.Admits schema (.bool truth) :=
  .inr (.boolean truth)

theorem Admits.truth (admits : ValueType.boolean.Admits schema value) :
    value = .null ∨ ∃ truth, value = .bool truth := by
  rcases admits with isNull | typed
  · exact .inl isNull
  · cases typed with
    | boolean truth => exact .inr ⟨truth, rfl⟩
    | int numeric | float numeric => cases numeric
    | text textual => cases textual

theorem Admits.memberOrNull {model : Model} {name : String} {visible : VisibleField}
    (admits : (ValueType.model model).Admits schema value)
    (found : schema.field? model name = some visible) :
    (schema.valueTypeOf visible.field).Admits schema (value.memberOrNull name) := by
  rcases admits with rfl | typed
  · exact .inl rfl
  · cases typed with
    | @record _ members each =>
      have named : visible.name = name := by simpa using List.find?_some found
      have listed : visible ∈ schema.fields model := List.mem_of_find?_eq_some found
      unfold Json.memberOrNull
      cases member : (Json.object members).member? name with
      | none => exact .inl rfl
      | some value =>
        by_cases isNull : value = .null
        next => exact .inl isNull
        next => exact .inr (each visible listed value (named ▸ member) isNull)

theorem Admits.elements {kind : ValueKind} (admits : ValueType.Admits schema ⟨kind, true⟩ value) :
    ∀ element ∈ value.elements, ValueType.Admits schema ⟨kind, false⟩ element := by
  rcases admits with rfl | typed
  · exact nofun
  · cases typed with
    | list each => exact fun element found => .inr (each element found)
    | unsupported => exact fun element _ => .inr (.unsupported false element)

section

variable {kind : Scalar}

theorem admits_ofFloat (numeric : kind.isNumeric = true) (number : Float) :
    (ValueType.scalar kind).Admits schema (.ofFloat number) := by
  unfold Json.ofFloat
  split
  · exact .inr (.float numeric number)
  · exact .inl rfl

theorem admits_negate (numeric : kind.isNumeric = true) (value : Json) :
    (ValueType.scalar kind).Admits schema value.negate := by
  unfold Json.negate
  split
  · split
    · exact .inr (.int numeric _)
    · exact .inl rfl
  · split
    · exact admits_ofFloat numeric _
    · exact .inl rfl

theorem admits_arithmetic (numeric : kind.isNumeric = true) (op : Arithmetic)
    (left right : Json) : (ValueType.scalar kind).Admits schema (op.apply left right) := by
  unfold Arithmetic.apply
  simp only
  split
  · exact .inr (.int numeric _)
  · cases op with
    | div =>
      unfold Arithmetic.applyFloats
      simp only
      split
      · exact .inl rfl
      · exact admits_ofFloat numeric _
    | _ => exact admits_ofFloat numeric _
  · exact .inl rfl

theorem admits_literal {literal : Literal} (lowered : Lower.literal literal = .ok value) :
    (Typing.literal literal).Admits schema value := by
  cases literal with
  | string text =>
    cases lowered
    exact .inr (.text rfl text)
  | boolean truth =>
    cases lowered
    exact admits_bool
  | null =>
    cases lowered
    exact .inl rfl
  | number text =>
    have numeric : (if text.toList.contains '.' then Scalar.float else .int).isNumeric = true := by
      split <;> rfl
    rw [Lower.literal, Lower.number] at lowered
    split at lowered
    · cases lowered
      exact .inr (.int numeric _)
    · split at lowered
      · cases lowered
        exact .inr (.float numeric _)
      · cases lowered

end

theorem admits_apply (now : String) (function : ValueFunction) (arguments : List Json) :
    (ValueType.scalar function.result).Admits schema (function.apply now arguments) := by
  cases function with
  | now => exact .inr (.text rfl now)
  | contains | startsWith | endsWith => exact admits_bool
  | has | hasSome | hasEvery | isEmpty =>
    unfold ValueFunction.apply
    split
    case h_8 wrong => cases wrong
    all_goals exact admits_bool

end ValueType

structure EvalContext.Conforms (schema : Schema) (model : Model) (context : EvalContext) :
    Prop where
  record : (ValueType.model model).Admits schema context.record
  future : ∀ value, context.future = some value → (ValueType.model model).Admits schema value
  principal : ∀ value user, context.principal = some value → schema.principal? = some user →
    (ValueType.model user).Admits schema value

end Schemata
