import Schemata.Proofs.Syntax.WellFormed

set_option autoImplicit false

namespace Schemata

structure Attribute.WellFormed (signs : String) (applied : Attribute) : Prop where
  name : ∃ word, IsName word ∧ applied.name.name = signs ++ word
  arguments : ∀ argument ∈ applied.arguments, argument.WellFormed

structure ConfigEntry.WellFormed (entry : ConfigEntry) : Prop where
  name : IsName entry.name.name
  value : entry.value.WellFormed

structure ConfigBlock.WellFormed (block : ConfigBlock) : Prop where
  name : IsName block.name.name
  entries : ∀ entry ∈ block.entries, entry.WellFormed

structure EnumMember.WellFormed (enumMember : EnumMember) : Prop where
  name : IsName enumMember.name.name
  attributes : ∀ applied ∈ enumMember.attributes, applied.WellFormed "@"

structure EnumDecl.WellFormed (decl : EnumDecl) : Prop where
  name : IsName decl.name.name
  members : ∀ enumMember ∈ decl.members, enumMember.WellFormed
  attributes : ∀ applied ∈ decl.attributes, applied.WellFormed "@@"

structure IsTypeName (name : String) : Prop where
  isName : IsName name
  supported : name ≠ "Unsupported"
  noScalar : Scalar.ofName? name = none
  noBuiltin : Builtin.ofName? name = none

def TypeName.WellFormed : TypeName → Prop
  | .named name => IsTypeName name.name
  | _ => True

structure Field.WellFormed (field : Field) : Prop where
  name : IsName field.name.name
  type : field.type.name.WellFormed
  attributes : ∀ applied ∈ field.attributes, applied.WellFormed "@"

structure Model.WellFormed (model : Model) : Prop where
  name : IsName model.name.name
  bases : ∀ base ∈ model.bases, IsName base.name
  fields : ∀ field ∈ model.fields, field.WellFormed
  attributes : ∀ applied ∈ model.attributes, applied.WellFormed "@@"

structure FunctionParam.WellFormed (param : FunctionParam) : Prop where
  name : IsName param.name.name
  type : param.type.name.WellFormed

structure FunctionDecl.WellFormed (decl : FunctionDecl) : Prop where
  name : IsName decl.name.name
  params : ∀ param ∈ decl.params, param.WellFormed
  result : decl.result.name.WellFormed
  body : ∀ body ∈ decl.body, body.WellFormed

structure AttributeParam.WellFormed (param : AttributeParam) : Prop where
  name : IsName param.name.name
  type : param.type.name.WellFormed

structure AttributeDecl.WellFormed (decl : AttributeDecl) : Prop where
  name : ∃ signs ∈ ["@@@", "@@", "@"], ∃ word, IsName word ∧ decl.name.name = signs ++ word
  params : ∀ param ∈ decl.params, param.WellFormed
  restrictions : ∀ applied ∈ decl.restrictions, applied.WellFormed "@@@"

def Declaration.WellFormed : Declaration → Prop
  | .dataSource block | .plugin block => block.WellFormed
  | .enum decl => decl.WellFormed
  | .model decl => decl.WellFormed
  | .function decl => decl.WellFormed
  | .attr decl => decl.WellFormed

def Document.WellFormed (document : Document) : Prop :=
  ∀ declaration ∈ document.declarations, declaration.WellFormed

namespace Reading

variable {comments : Bool}

theorem orMiss_eq_ok {α : Type} {read : Option α} {cursor : Cursor} {what : Expected} {value : α} :
    orMiss read cursor what = .ok value ↔ read = some value := by
  cases read with
  | none => exact ⟨nofun, nofun⟩
  | some other => exact ⟨fun same => by cases same; rfl, fun same => by cases same; rfl⟩

theorem wellFormed_ofIdent {name : Ident} (isName : IsName name.name)
    (supported : name.name ≠ "Unsupported") : (TypeName.ofIdent name).WellFormed := by
  -- Only a name that is none of the built-in ones is taken for a declared type.
  unfold TypeName.ofIdent
  split
  next => trivial
  next noScalar =>
    split
    next => trivial
    next noBuiltin => exact ⟨isName, supported, noScalar, noBuiltin⟩

theorem typeName_yields : Yields (typeName comments) TypeName.WellFormed := by
  intro cursor type after read
  obtain ⟨⟨name, next⟩, nameRead, read⟩ := Except.bind_eq_ok.1 read
  have isName := Cursor.isName_of_identifier? (orMiss_eq_ok.1 nameRead)
  simp only at read
  split at read
  next =>
    obtain ⟨_, _, read⟩ := Except.bind_eq_ok.1 read
    obtain ⟨_, _, read⟩ := Except.bind_eq_ok.1 read
    obtain ⟨_, _, read⟩ := Except.bind_eq_ok.1 read
    cases read
    trivial
  next supported =>
    cases read
    exact wellFormed_ofIdent isName supported

theorem typeRef_yields : Yields (typeRef comments) fun type => type.name.WellFormed := by
  intro cursor type after read
  obtain ⟨⟨name, next⟩, nameRead, read⟩ := Except.bind_eq_ok.1 read
  cases read
  exact typeName_yields _ name next nameRead

theorem attributeAt_yields (signs : String) (start : Cursor) :
    Yields (attributeAt comments signs start) (Attribute.WellFormed signs) := by
  intro cursor applied after read
  obtain ⟨⟨word, next⟩, wordRead, read⟩ := Except.bind_eq_ok.1 read
  have isName := Cursor.isName_of_identifier? (orMiss_eq_ok.1 wordRead)
  simp only at read
  split at read
  next =>
    obtain ⟨⟨values, last⟩, valuesRead, read⟩ := Except.bind_eq_ok.1 read
    cases read
    exact ⟨⟨word, isName, rfl⟩, arguments_yields comments _ values _ valuesRead⟩
  next =>
    cases read
    exact ⟨⟨word, isName, rfl⟩, fun _ found => nomatch found⟩

theorem attributesWith_yields (signs : String) (sign? : Cursor → Option Cursor) (fuel : Nat) :
    Yields (attributesWith comments signs sign? fuel)
      fun attributes => ∀ applied ∈ attributes, applied.WellFormed signs := by
  induction fuel with
  | zero =>
    intro cursor attributes after read
    cases read
    exact fun _ found => nomatch found
  | succ fuel ih =>
    intro cursor attributes after read
    simp only [attributesWith] at read
    split at read
    next =>
      cases read
      exact fun _ found => nomatch found
    next =>
      obtain ⟨⟨first, next⟩, firstRead, read⟩ := Except.bind_eq_ok.1 read
      obtain ⟨⟨others, last⟩, othersRead, read⟩ := Except.bind_eq_ok.1 read
      cases read
      exact List.forall_mem_cons.2
        ⟨attributeAt_yields signs _ _ first next firstRead, ih next others _ othersRead⟩

theorem fieldAttributes_yields : Yields (fieldAttributes comments)
    fun attributes => ∀ applied ∈ attributes, applied.WellFormed "@" :=
  fun cursor => attributesWith_yields "@" fieldSign? _ cursor

theorem entriesWith_yields (fuel : Nat) : Yields (entriesWith comments fuel)
    fun entries => ∀ entry ∈ entries, entry.WellFormed := by
  induction fuel with
  | zero =>
    intro cursor entries after read
    cases read
  | succ fuel ih =>
    intro cursor entries after read
    simp only [entriesWith] at read
    split at read
    next =>
      cases read
      exact fun _ found => nomatch found
    next =>
      obtain ⟨⟨name, next⟩, nameRead, read⟩ := Except.bind_eq_ok.1 read
      obtain ⟨next, _, read⟩ := Except.bind_eq_ok.1 read
      obtain ⟨⟨value, next⟩, valueRead, read⟩ := Except.bind_eq_ok.1 read
      obtain ⟨⟨others, last⟩, othersRead, read⟩ := Except.bind_eq_ok.1 read
      cases read
      have formed := expression_yields comments _ value next valueRead
      exact List.forall_mem_cons.2
        ⟨⟨isName_of_ident nameRead, formed⟩, ih next others _ othersRead⟩

theorem bodyWith_yields {α : Type} {item : Cursor → Reading (α × Cursor)} {property : α → Prop}
    (each : Yields item property) (fuel : Nat) :
    Yields (bodyWith comments item fuel) fun (members, attributes) =>
      (∀ value ∈ members, property value) ∧ ∀ applied ∈ attributes, applied.WellFormed "@@" := by
  induction fuel with
  | zero =>
    intro cursor body after read
    cases read
  | succ fuel ih =>
    intro cursor body after read
    simp only [bodyWith] at read
    -- A line is the closing brace, an attribute with two signs, or a member.
    split at read
    next =>
      cases read
      exact ⟨nofun, nofun⟩
    next =>
      split at read
      next =>
        obtain ⟨⟨first, next⟩, firstRead, read⟩ := Except.bind_eq_ok.1 read
        obtain ⟨⟨⟨members, others⟩, last⟩, othersRead, read⟩ := Except.bind_eq_ok.1 read
        cases read
        have behind := ih next (members, others) _ othersRead
        have formed := attributeAt_yields "@@" _ _ first next firstRead
        exact ⟨behind.1, List.forall_mem_cons.2 ⟨formed, behind.2⟩⟩
      next =>
        obtain ⟨⟨first, next⟩, firstRead, read⟩ := Except.bind_eq_ok.1 read
        obtain ⟨⟨⟨others, attributes⟩, last⟩, othersRead, read⟩ := Except.bind_eq_ok.1 read
        cases read
        have behind := ih next (others, attributes) _ othersRead
        exact ⟨List.forall_mem_cons.2 ⟨each _ first next firstRead, behind.1⟩, behind.2⟩

theorem enumMember_yields : Yields (enumMember comments) EnumMember.WellFormed := by
  intro cursor member after read
  obtain ⟨⟨name, next⟩, nameRead, read⟩ := Except.bind_eq_ok.1 read
  obtain ⟨⟨attributes, last⟩, attributesRead, read⟩ := Except.bind_eq_ok.1 read
  cases read
  exact ⟨isName_of_ident nameRead, fieldAttributes_yields _ attributes _ attributesRead⟩

theorem field_yields : Yields (field comments) Field.WellFormed := by
  intro cursor value after read
  obtain ⟨⟨name, next⟩, nameRead, read⟩ := Except.bind_eq_ok.1 read
  obtain ⟨⟨type, next⟩, typeRead, read⟩ := Except.bind_eq_ok.1 read
  obtain ⟨⟨attributes, last⟩, attributesRead, read⟩ := Except.bind_eq_ok.1 read
  cases read
  exact ⟨isName_of_ident nameRead, typeRef_yields _ type _ typeRead,
    fieldAttributes_yields _ attributes _ attributesRead⟩

theorem configBlock_yields (start : Nat) :
    Yields (configBlock comments start) ConfigBlock.WellFormed := by
  intro cursor block after read
  obtain ⟨⟨name, next⟩, nameRead, read⟩ := Except.bind_eq_ok.1 read
  obtain ⟨next, _, read⟩ := Except.bind_eq_ok.1 read
  obtain ⟨⟨entries, last⟩, entriesRead, read⟩ := Except.bind_eq_ok.1 read
  cases read
  exact ⟨isName_of_ident nameRead, entriesWith_yields _ next entries _ entriesRead⟩

theorem enumDecl_yields (start : Nat) : Yields (enumDecl comments start) EnumDecl.WellFormed := by
  intro cursor decl after read
  obtain ⟨⟨name, next⟩, nameRead, read⟩ := Except.bind_eq_ok.1 read
  obtain ⟨next, _, read⟩ := Except.bind_eq_ok.1 read
  obtain ⟨⟨⟨members, attributes⟩, last⟩, bodyRead, read⟩ := Except.bind_eq_ok.1 read
  cases read
  have body := bodyWith_yields enumMember_yields _ next (members, attributes) _ bodyRead
  exact ⟨isName_of_ident nameRead, body.1, body.2⟩

theorem basesWith_yields (fuel : Nat) : Yields (basesWith comments fuel)
    fun bases => ∀ base ∈ bases, IsName base.name := by
  induction fuel with
  | zero =>
    intro cursor bases after read
    cases read
  | succ fuel ih =>
    intro cursor bases after read
    obtain ⟨⟨first, next⟩, firstRead, read⟩ := Except.bind_eq_ok.1 read
    have isName := isName_of_ident firstRead
    simp only at read
    split at read
    next =>
      cases read
      exact List.forall_mem_cons.2 ⟨isName, fun _ found => nomatch found⟩
    next =>
      obtain ⟨⟨others, last⟩, othersRead, read⟩ := Except.bind_eq_ok.1 read
      cases read
      exact List.forall_mem_cons.2 ⟨isName, ih _ others _ othersRead⟩

theorem bases_yields : Yields (bases comments) fun bases => ∀ base ∈ bases, IsName base.name := by
  intro cursor names after read
  unfold bases at read
  split at read
  next => exact basesWith_yields _ _ names after read
  next =>
    cases read
    exact fun _ found => nomatch found

theorem model_yields (start : Nat) (isAbstract : Bool) :
    Yields (model comments start isAbstract) Model.WellFormed := by
  intro cursor decl after read
  obtain ⟨⟨name, next⟩, nameRead, read⟩ := Except.bind_eq_ok.1 read
  obtain ⟨⟨names, next⟩, basesRead, read⟩ := Except.bind_eq_ok.1 read
  obtain ⟨next, _, read⟩ := Except.bind_eq_ok.1 read
  obtain ⟨⟨⟨fields, attributes⟩, last⟩, bodyRead, read⟩ := Except.bind_eq_ok.1 read
  cases read
  have body := bodyWith_yields field_yields _ next (fields, attributes) _ bodyRead
  exact ⟨isName_of_ident nameRead, bases_yields _ names _ basesRead, body.1, body.2⟩

theorem functionParam_yields : Yields (functionParam comments) FunctionParam.WellFormed := by
  intro cursor param after read
  obtain ⟨⟨name, next⟩, nameRead, read⟩ := Except.bind_eq_ok.1 read
  obtain ⟨next, _, read⟩ := Except.bind_eq_ok.1 read
  obtain ⟨⟨type, last⟩, typeRead, read⟩ := Except.bind_eq_ok.1 read
  cases read
  exact ⟨isName_of_ident nameRead, typeRef_yields _ type _ typeRead⟩

theorem functionBody_yields :
    Yields (functionBody comments) fun body => ∀ value ∈ body, value.WellFormed := by
  intro cursor body after read
  obtain ⟨next, _, read⟩ := Except.bind_eq_ok.1 read
  split at read
  next =>
    cases read
    exact fun _ found => nomatch found
  next =>
    obtain ⟨⟨value, last⟩, valueRead, read⟩ := Except.bind_eq_ok.1 read
    obtain ⟨closed, _, read⟩ := Except.bind_eq_ok.1 read
    cases read
    rintro _ ⟨⟩
    exact expression_yields comments _ value _ valueRead

theorem functionDecl_yields (start : Nat) :
    Yields (functionDecl comments start) FunctionDecl.WellFormed := by
  intro cursor decl after read
  obtain ⟨⟨name, next⟩, nameRead, read⟩ := Except.bind_eq_ok.1 read
  obtain ⟨next, _, read⟩ := Except.bind_eq_ok.1 read
  obtain ⟨⟨params, next⟩, paramsRead, read⟩ := Except.bind_eq_ok.1 read
  obtain ⟨next, _, read⟩ := Except.bind_eq_ok.1 read
  obtain ⟨⟨result, next⟩, resultRead, read⟩ := Except.bind_eq_ok.1 read
  obtain ⟨⟨value, last⟩, bodyRead, read⟩ := Except.bind_eq_ok.1 read
  cases read
  exact ⟨isName_of_ident nameRead, items_yields functionParam_yields _ params _ paramsRead,
    typeRef_yields _ result _ resultRead, functionBody_yields _ value _ bodyRead⟩

theorem attributeParam_yields : Yields (attributeParam comments) AttributeParam.WellFormed := by
  intro cursor param after read
  obtain ⟨⟨name, next⟩, nameRead, read⟩ := Except.bind_eq_ok.1 read
  obtain ⟨next, _, read⟩ := Except.bind_eq_ok.1 read
  obtain ⟨⟨type, last⟩, typeRead, read⟩ := Except.bind_eq_ok.1 read
  cases read
  exact ⟨isName_of_ident nameRead, typeRef_yields _ type _ typeRead⟩

theorem mem_of_attributeSigns? {cursor after : Cursor} {allowed : List String} {signs : String}
    (found : attributeSigns? cursor allowed = some (signs, after)) : signs ∈ allowed := by
  induction allowed with
  | nil => cases found
  | cons first others ih =>
    rw [attributeSigns?] at found
    split at found
    next =>
      cases found
      exact List.mem_cons_self
    next => exact List.mem_cons_of_mem _ (ih found)

theorem attributeDecl_yields (start : Nat) :
    Yields (attributeDecl comments start) AttributeDecl.WellFormed := by
  intro cursor decl after read
  obtain ⟨⟨signs, next⟩, signsRead, read⟩ := Except.bind_eq_ok.1 read
  obtain ⟨⟨word, next⟩, wordRead, read⟩ := Except.bind_eq_ok.1 read
  obtain ⟨next, _, read⟩ := Except.bind_eq_ok.1 read
  obtain ⟨⟨params, next⟩, paramsRead, read⟩ := Except.bind_eq_ok.1 read
  obtain ⟨⟨restricted, last⟩, restrictionsRead, read⟩ := Except.bind_eq_ok.1 read
  cases read
  have isName := Cursor.isName_of_identifier? (orMiss_eq_ok.1 wordRead)
  exact ⟨⟨signs, mem_of_attributeSigns? (orMiss_eq_ok.1 signsRead), word, isName, rfl⟩,
    items_yields attributeParam_yields _ params _ paramsRead,
    attributesWith_yields "@@@" _ _ _ restricted _ restrictionsRead⟩

theorem declaration_yields : Yields (declaration comments) Declaration.WellFormed := by
  intro cursor declared after read
  obtain ⟨⟨opening, next⟩, _, read⟩ := Except.bind_eq_ok.1 read
  simp only at read
  cases opening
  case dataSource =>
    obtain ⟨⟨block, last⟩, blockRead, read⟩ := Except.bind_eq_ok.1 read
    cases read
    exact configBlock_yields _ _ block _ blockRead
  case plugin =>
    obtain ⟨⟨block, last⟩, blockRead, read⟩ := Except.bind_eq_ok.1 read
    cases read
    exact configBlock_yields _ _ block _ blockRead
  case enum =>
    obtain ⟨⟨decl, last⟩, declRead, read⟩ := Except.bind_eq_ok.1 read
    cases read
    exact enumDecl_yields _ _ decl _ declRead
  case abstract =>
    obtain ⟨next, _, read⟩ := Except.bind_eq_ok.1 read
    obtain ⟨⟨decl, last⟩, declRead, read⟩ := Except.bind_eq_ok.1 read
    cases read
    exact model_yields _ _ _ decl _ declRead
  case model =>
    obtain ⟨⟨decl, last⟩, declRead, read⟩ := Except.bind_eq_ok.1 read
    cases read
    exact model_yields _ _ _ decl _ declRead
  case function =>
    obtain ⟨⟨decl, last⟩, declRead, read⟩ := Except.bind_eq_ok.1 read
    cases read
    exact functionDecl_yields _ _ decl _ declRead
  case attr =>
    obtain ⟨⟨decl, last⟩, declRead, read⟩ := Except.bind_eq_ok.1 read
    cases read
    exact attributeDecl_yields _ _ decl _ declRead

theorem declarationsWith_yields (fuel : Nat) : ∀ cursor declarations,
    declarationsWith comments fuel cursor = .ok declarations →
      ∀ declared ∈ declarations, declared.WellFormed := by
  induction fuel with
  | zero =>
    intro cursor declarations read
    cases read
  | succ fuel ih =>
    intro cursor declarations read
    simp only [declarationsWith] at read
    split at read
    next =>
      cases read
      exact fun _ found => nomatch found
    next =>
      obtain ⟨⟨first, next⟩, firstRead, read⟩ := Except.bind_eq_ok.1 read
      obtain ⟨others, othersRead, read⟩ := Except.bind_eq_ok.1 read
      cases read
      exact List.forall_mem_cons.2
        ⟨declaration_yields _ first next firstRead, ih next others othersRead⟩

end Reading

theorem Document.wellFormed_of_readWith {comments : Bool} {text : String} {document : Document}
    (read : Document.readWith comments text = .ok document) : document.WellFormed := by
  obtain ⟨declarations, declared, same⟩ := Except.map_eq_ok.1 (Except.mapError_eq_ok.1 read)
  cases same
  exact Reading.declarationsWith_yields _ _ declarations declared

end Schemata
