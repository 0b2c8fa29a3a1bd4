import Schemata.Proofs.Json.Arrangement
import Schemata.Proofs.Syntax.ExprInduction

set_option autoImplicit false

namespace Schemata

open Json (Arrangement DecodesTo)

variable (arrangement : Arrangement)

namespace Span

@[simp] theorem distinct_toJson (span : Span) : span.toJson.Distinct := by
  simp [toJson]

@[simp] theorem ofJson?_hold (span : Span) :
    ofJson? (arrangement.hold span.toJson) = some span := by
  simp [toJson, ofJson?, lookup_entry, Json.nat?]

end Span

namespace Ident

@[simp] theorem distinct_toJson (ident : Ident) : ident.toJson.Distinct := by
  simp [toJson]

@[simp] theorem ofJson?_hold (ident : Ident) :
    ofJson? (arrangement.hold ident.toJson) = some ident := by
  simp [toJson, ofJson?, lookup_entry, Json.string?]

end Ident

@[simp] theorem Scalar.named?_name (kind : Scalar) :
    Json.named? all name (.string kind.name) = some kind := by
  cases kind <;> rfl

@[simp] theorem Builtin.named?_name (kind : Builtin) :
    Json.named? all name (.string kind.name) = some kind := by
  cases kind <;> rfl

namespace TypeName

@[simp] theorem distinct_toJson (name : TypeName) : name.toJson.Distinct := by
  cases name <;> simp [toJson]

@[simp] theorem ofJson?_hold (name : TypeName) :
    ofJson? (arrangement.hold name.toJson) = some name := by
  cases name <;> simp [toJson, ofJson?, lookup_entry, Json.string?]

end TypeName

namespace TypeRef

@[simp] theorem distinct_toJson (type : TypeRef) : type.toJson.Distinct := by
  simp [toJson]

@[simp] theorem ofJson?_hold (type : TypeRef) :
    ofJson? (arrangement.hold type.toJson) = some type := by
  simp [toJson, ofJson?, lookup_entry, Json.bool?]

end TypeRef

@[simp] theorem UnaryOp.named?_jsonName (op : UnaryOp) :
    Json.named? all jsonName (.string op.jsonName) = some op := by
  cases op <;> rfl

@[simp] theorem BinaryOp.named?_jsonName (op : BinaryOp) :
    Json.named? all jsonName (.string op.jsonName) = some op := by
  cases op <;> rfl

@[simp] theorem Quantifier.named?_jsonName (quantifier : Quantifier) :
    Json.named? every jsonName (.string quantifier.jsonName) = some quantifier := by
  cases quantifier <;> rfl

namespace Literal

@[simp] theorem distinct_toJson (value : Literal) : value.toJson.Distinct := by
  cases value <;> simp [toJson]

@[simp] theorem ofJson?_hold (value : Literal) :
    ofJson? (arrangement.hold value.toJson) = some value := by
  cases value <;> simp [toJson, ofJson?, lookup_entry, Json.string?, Json.bool?]

end Literal

@[simp] theorem Expr.toJsons_eq_map (items : List Expr) : toJsons items = items.map toJson := by
  induction items with
  | nil => rfl
  | cons item rest ih => rw [toJsons, ih, List.map_cons]

@[simp] theorem Argument.toJsons_eq_map (arguments : List Argument) :
    toJsons arguments = arguments.map toJson := by
  induction arguments with
  | nil => rfl
  | cons argument rest ih => rw [toJsons, ih, List.map_cons]

theorem Argument.distinct_of_value {argument : Argument} (value : argument.value.toJson.Distinct) :
    argument.toJson.Distinct := by
  cases argument <;> simpa [toJson, Argument.value] using value

@[simp] theorem Expr.distinct_toJson (expr : Expr) : expr.toJson.Distinct := by
  induction expr using Expr.inductionOn with
  | literal value span => simp [toJson, node]
  | this span => simp [toJson, node]
  | reference name span => simp [toJson, node]
  | access object member span object_ih => simp [toJson, node, object_ih]
  | unary op operand span operand_ih => simp [toJson, node, operand_ih]
  | binary op left right span left_ih right_ih => simp [toJson, node, left_ih, right_ih]
  | call function arguments span ih =>
    have each : ∀ argument ∈ arguments, argument.toJson.Distinct :=
      fun argument found => Argument.distinct_of_value (ih argument found)
    simpa [toJson, node] using each
  | list items span ih => simpa [toJson, node] using ih
  | quantified collection quantifier condition span collection_ih condition_ih =>
    simp [toJson, node, collection_ih, condition_ih]

@[simp] theorem Argument.distinct_toJson (argument : Argument) : argument.toJson.Distinct :=
  Argument.distinct_of_value argument.value.distinct_toJson

section

variable {arrangement : Arrangement} {tag : String} {span : Span} {fuel : Nat}

theorem Expr.depth_data_lt {data : Json}
    (enough : (arrangement.hold (node tag (some data) span)).depth ≤ fuel) :
    (arrangement.hold data).depth + 1 < fuel := by
  have kind : (arrangement.hold data).depth <
      (arrangement.hold (.object [("expr", .string tag), ("data", data)])).depth :=
    arrangement.depth_member_lt (by simp) (by simp)
  have whole : (arrangement.hold (.object [("expr", .string tag), ("data", data)])).depth <
      (arrangement.hold (node tag (some data) span)).depth :=
    arrangement.depth_member_lt (by simp) (by simp)
  omega

theorem Expr.depth_part_lt {members : List (String × Json)} {part : Json}
    (distinct : (members.map Prod.fst).Nodup) (found : part ∈ members.map Prod.snd)
    (enough : (arrangement.hold (node tag (some (.object members)) span)).depth ≤ fuel) :
    (arrangement.hold part).depth < fuel := by
  have data := depth_data_lt enough
  have member := arrangement.depth_member_lt distinct found
  omega

theorem Argument.decodesTo_of_value {argument : Argument}
    (value : DecodesTo Expr.ofJsonWith? (arrangement.hold argument.value.toJson) argument.value) :
    DecodesTo ofJsonWith? (arrangement.hold argument.toJson) argument := by
  refine .intro fun fuel enough => ?_
  cases argument with
  | positional inner =>
    have part : (arrangement.hold inner.toJson).depth < fuel :=
      arrangement.depth_part_lt (by simp) (by simp) enough
    have decoded : Expr.ofJsonWith? fuel (arrangement.hold inner.toJson) = some inner :=
      value fuel part
    simp [toJson, ofJsonWith?, lookup_entry, Json.string?, decoded]
  | named name inner =>
    have part : (arrangement.hold inner.toJson).depth < fuel :=
      arrangement.depth_part_lt (by simp) (by simp) enough
    have decoded : Expr.ofJsonWith? fuel (arrangement.hold inner.toJson) = some inner :=
      value fuel part
    simp [toJson, ofJsonWith?, lookup_entry, Json.string?, decoded]

theorem Expr.decodesTo (expr : Expr) :
    DecodesTo ofJsonWith? (arrangement.hold expr.toJson) expr := by
  -- Each part is less deep than the whole by more than one level, that of the data included.
  induction expr using Expr.inductionOn with
  | literal value span =>
    exact .intro fun fuel _ => by simp [toJson, ofJsonWith?, node, lookup_entry, Json.string?]
  | this span =>
    exact .intro fun fuel _ => by simp [toJson, ofJsonWith?, node, lookup_entry, Json.string?]
  | reference name span =>
    exact .intro fun fuel _ => by simp [toJson, ofJsonWith?, node, lookup_entry, Json.string?]
  | access object member span object_ih =>
    refine .intro fun fuel enough => ?_
    have decoded := object_ih fuel (depth_part_lt (by simp) (by simp) enough)
    simp [toJson, ofJsonWith?, node, lookup_entry, Json.string?, decoded]
  | unary op operand span operand_ih =>
    refine .intro fun fuel enough => ?_
    have decoded := operand_ih fuel (depth_part_lt (by simp) (by simp) enough)
    simp [toJson, ofJsonWith?, node, lookup_entry, Json.string?, decoded]
  | binary op left right span left_ih right_ih =>
    refine .intro fun fuel enough => ?_
    have first := left_ih fuel (depth_part_lt (by simp) (by simp) enough)
    have second := right_ih fuel (depth_part_lt (by simp) (by simp) enough)
    simp [toJson, ofJsonWith?, node, lookup_entry, Json.string?, first, second]
  | call function arguments span ih =>
    refine .intro fun fuel enough => ?_
    have each := arrangement.decodesTo_list fun argument found =>
      Argument.decodesTo_of_value (ih argument found)
    have decoded := each fuel (depth_part_lt (by simp) (by simp) enough)
    simp [toJson, ofJsonWith?, node, lookup_entry, Json.string?, decoded]
  | list items span ih =>
    refine .intro fun fuel enough => ?_
    have data := Nat.lt_of_succ_lt (depth_data_lt enough)
    rw [toJsons_eq_map] at data
    have decoded := arrangement.decodesTo_list ih fuel data
    simp [toJson, ofJsonWith?, node, lookup_entry, Json.string?, decoded]
  | quantified collection quantifier condition span collection_ih condition_ih =>
    refine .intro fun fuel enough => ?_
    have first := collection_ih fuel (depth_part_lt (by simp) (by simp) enough)
    have second := condition_ih fuel (depth_part_lt (by simp) (by simp) enough)
    simp [toJson, ofJsonWith?, node, lookup_entry, Json.string?, first, second]

end

@[simp] theorem Expr.ofJson?_hold (expr : Expr) :
    ofJson? (arrangement.hold expr.toJson) = some expr :=
  expr.decodesTo _ (Nat.lt_succ_self _)

@[simp] theorem Argument.ofJson?_hold (argument : Argument) :
    ofJson? (arrangement.hold argument.toJson) = some argument :=
  Argument.decodesTo_of_value argument.value.decodesTo _ (Nat.lt_succ_self _)

namespace Attribute

@[simp] theorem distinct_toJson (applied : Attribute) : applied.toJson.Distinct := by
  simp [toJson]

@[simp] theorem ofJson?_hold (applied : Attribute) :
    ofJson? (arrangement.hold applied.toJson) = some applied := by
  simp [toJson, ofJson?, lookup_entry]

end Attribute

namespace ConfigEntry

@[simp] theorem distinct_toJson (entry : ConfigEntry) : entry.toJson.Distinct := by
  simp [toJson]

@[simp] theorem ofJson?_hold (entry : ConfigEntry) :
    ofJson? (arrangement.hold entry.toJson) = some entry := by
  simp [toJson, ofJson?, lookup_entry]

end ConfigEntry

namespace EnumMember

@[simp] theorem distinct_toJson (enumMember : EnumMember) : enumMember.toJson.Distinct := by
  simp [toJson]

@[simp] theorem ofJson?_hold (enumMember : EnumMember) :
    ofJson? (arrangement.hold enumMember.toJson) = some enumMember := by
  simp [toJson, ofJson?, lookup_entry]

end EnumMember

namespace Field

@[simp] theorem distinct_toJson (field : Field) : field.toJson.Distinct := by
  simp [toJson]

@[simp] theorem ofJson?_hold (field : Field) :
    ofJson? (arrangement.hold field.toJson) = some field := by
  simp [toJson, ofJson?, lookup_entry]

end Field

namespace FunctionParam

@[simp] theorem distinct_toJson (param : FunctionParam) : param.toJson.Distinct := by
  simp [toJson]

@[simp] theorem ofJson?_hold (param : FunctionParam) :
    ofJson? (arrangement.hold param.toJson) = some param := by
  simp [toJson, ofJson?, lookup_entry]

end FunctionParam

namespace AttributeParam

@[simp] theorem distinct_toJson (param : AttributeParam) : param.toJson.Distinct := by
  simp [toJson]

@[simp] theorem ofJson?_hold (param : AttributeParam) :
    ofJson? (arrangement.hold param.toJson) = some param := by
  simp [toJson, ofJson?, lookup_entry, Json.bool?]

end AttributeParam

theorem Expr.hold_toJson_ne_null (expr : Expr) : arrangement.hold expr.toJson ≠ .null := by
  intro null
  have decoded := expr.ofJson?_hold arrangement
  rw [null] at decoded
  cases decoded

namespace Declaration

@[simp] theorem distinct_toJson (decl : Declaration) : decl.toJson.Distinct := by
  cases decl with
  | dataSource block => simp [toJson, ConfigBlock.jsonMembers]
  | plugin block => simp [toJson, ConfigBlock.jsonMembers]
  | enum decl => simp [toJson, EnumDecl.jsonMembers]
  | model decl => simp [toJson, Model.jsonMembers]
  | function decl =>
    obtain ⟨name, params, result, body, span⟩ := decl
    cases body <;> simp [toJson, FunctionDecl.jsonMembers]
  | attr decl => simp [toJson, AttributeDecl.jsonMembers]

@[simp] theorem ofJson?_hold (decl : Declaration) :
    ofJson? (arrangement.hold decl.toJson) = some decl := by
  cases decl with
  | dataSource block =>
    simp [toJson, ofJson?, ConfigBlock.jsonMembers, ConfigBlock.ofJson?, lookup_entry, Json.string?]
  | plugin block =>
    simp [toJson, ofJson?, ConfigBlock.jsonMembers, ConfigBlock.ofJson?, lookup_entry, Json.string?]
  | enum decl =>
    simp [toJson, ofJson?, EnumDecl.jsonMembers, EnumDecl.ofJson?, lookup_entry, Json.string?]
  | model decl =>
    simp [toJson, ofJson?, Model.jsonMembers, Model.ofJson?, lookup_entry, Json.string?, Json.bool?]
  | function decl =>
    obtain ⟨name, params, result, body, span⟩ := decl
    cases body with
    | none =>
      simp [toJson, ofJson?, FunctionDecl.jsonMembers, FunctionDecl.ofJson?, lookup_entry,
        Json.string?]
    | some body =>
      simp [toJson, ofJson?, FunctionDecl.jsonMembers, FunctionDecl.ofJson?, lookup_entry,
        Json.string?, body.hold_toJson_ne_null arrangement]
  | attr decl =>
    simp [toJson, ofJson?, AttributeDecl.jsonMembers, AttributeDecl.ofJson?, lookup_entry,
      Json.string?]

end Declaration

namespace Document

theorem distinct_toJson (document : Document) : document.toJson.Distinct := by
  simp [toJson]

theorem ofJson?_hold (document : Document) :
    ofJson? (arrangement.hold document.toJson) = some document := by
  simp [toJson, ofJson?]

end Document

end Schemata
