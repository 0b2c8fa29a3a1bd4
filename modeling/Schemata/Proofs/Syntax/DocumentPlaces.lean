import Schemata.Proofs.Syntax.ExprPlaces

set_option autoImplicit false

namespace Schemata

namespace Reading

open Cursor (Reaches Passes)

variable {text : String} {comments : Bool} {cursor after : Cursor}

theorem reaches_mark (word : String) (cursor : Cursor) : cursor.Reaches (mark word cursor).2 := by
  unfold mark
  split
  next found => exact (Cursor.passes_chars? found).reaches
  next => exact .refl _

theorem unsupported_places : Places text (unsupported comments) TypeName.outlines := by
  intro cursor name after isIn read
  obtain ⟨opened, opening, read⟩ := Except.bind_eq_ok.1 read
  obtain ⟨⟨written, next⟩, quotation, read⟩ := Except.bind_eq_ok.1 read
  obtain ⟨closed, closing, read⟩ := Except.bind_eq_ok.1 read
  cases read
  have start := (reaches_char opening).trans (Cursor.reaches_skip comments opened)
  have middle := start.trans (Cursor.reaches_quoted? (orMiss_eq_ok.1 quotation))
  exact .ofReaches (middle.trans (reaches_char closing))

theorem typeName_places : Places text (typeName comments) TypeName.outlines := by
  intro cursor name after isIn read
  obtain ⟨⟨word, next⟩, wordRead, read⟩ := Except.bind_eq_ok.1 read
  have passes := Cursor.passes_identifier? (orMiss_eq_ok.1 wordRead)
  simp only at read
  split at read
  next =>
    have nextIn : next.IsIn text := Reaches.trans isIn passes.reaches
    exact (unsupported_places next name after nextIn read).behind passes.reaches
  next =>
    cases read
    -- Only the name of a declared type is kept with its place.
    unfold TypeName.ofIdent
    split
    next => exact .ofReaches passes.reaches
    next =>
      split
      next => exact .ofReaches passes.reaches
      next => exact (readsName_identifier? (orMiss_eq_ok.1 wordRead)).covers isIn

theorem typeRef_places : Places text (typeRef comments) fun type => [type.outline] := by
  intro cursor type after isIn read
  obtain ⟨⟨name, next⟩, nameRead, read⟩ := Except.bind_eq_ok.1 read
  cases read
  have skipped := Cursor.reaches_skip comments cursor
  have startIn : (cursor.skip comments).IsIn text := Reaches.trans isIn skipped
  have covers := typeName_places _ name next startIn nameRead
  have marks := (reaches_mark "[]" next).trans (reaches_mark "?" (mark "[]" next).2)
  exact ((covers.before marks).whole startIn).behind skipped

theorem attributeAt_covers {signs : String} {start : Cursor} {applied : Attribute}
    (isIn : start.IsIn text) (passes : start.Passes signs.toList cursor)
    (read : attributeAt comments signs start cursor = .ok (applied, after)) :
    Covers text start after [applied.outline] := by
  obtain ⟨⟨word, next⟩, wordRead, read⟩ := Except.bind_eq_ok.1 read
  have wordPasses := Cursor.passes_identifier? (orMiss_eq_ok.1 wordRead)
  have reads : ReadsName start ⟨signs ++ word, ⟨start.offset, next.offset⟩⟩ next start := by
    refine ⟨.refl _, ?_, rfl⟩
    rw [String.toList_append]
    exact passes.append wordPasses
  have named := reads.covers isIn
  simp only at read
  split at read
  next inside opened =>
    obtain ⟨⟨values, last⟩, valuesRead, read⟩ := Except.bind_eq_ok.1 read
    cases read
    have opening :=
      (Cursor.reaches_skip comments next).trans (Cursor.passes_char? opened).reaches
    have prefixed := named.before opening
    have covers : Covers text inside last (values.flatMap Argument.outlines) :=
      arguments_places comments inside values _ (prefixed.isIn isIn) valuesRead
    exact (prefixed.append covers).whole isIn
  next =>
    cases read
    exact named.whole isIn

theorem attributesWith_places {signs : String} {sign? : Cursor → Option Cursor}
    (marked : ∀ start after, sign? start = some after → start.Passes signs.toList after)
    (fuel : Nat) : Places text (attributesWith comments signs sign? fuel)
      fun attributes => attributes.map Attribute.outline := by
  induction fuel with
  | zero =>
    intro cursor attributes after _ read
    cases read
    exact .ofReaches (.refl _)
  | succ fuel ih =>
    intro cursor attributes after isIn read
    have skipped := Cursor.reaches_skip comments cursor
    simp only [attributesWith] at read
    split at read
    next =>
      cases read
      exact .ofReaches (.refl _)
    next behind sign =>
      obtain ⟨⟨first, next⟩, firstRead, read⟩ := Except.bind_eq_ok.1 read
      obtain ⟨⟨others, last⟩, othersRead, read⟩ := Except.bind_eq_ok.1 read
      cases read
      have head := (attributeAt_covers (Reaches.trans isIn skipped) (marked _ _ sign)
        firstRead).behind skipped
      exact head.append (ih next others _ (head.isIn isIn) othersRead)

theorem passes_fieldSign? {start : Cursor} (found : fieldSign? start = some after) :
    start.Passes "@".toList after := by
  unfold fieldSign? at found
  split at found
  next sign =>
    split at found <;> cases found
    exact Cursor.passes_char? sign
  next => cases found

theorem fieldAttributes_places : Places text (fieldAttributes comments)
    fun attributes => attributes.map Attribute.outline :=
  fun cursor => attributesWith_places (fun _ _ => passes_fieldSign?) _ cursor

theorem restrictions_places : Places text (restrictions comments)
    fun attributes => attributes.map Attribute.outline :=
  fun cursor => attributesWith_places (fun _ _ => Cursor.passes_chars?) _ cursor

theorem entriesWith_places (fuel : Nat) : Places text (entriesWith comments fuel)
    fun entries => entries.map ConfigEntry.outline := by
  induction fuel with
  | zero =>
    intro cursor entries after _ read
    cases read
  | succ fuel ih =>
    intro cursor entries after isIn read
    have skipped := Cursor.reaches_skip comments cursor
    have startIn : (cursor.skip comments).IsIn text := Reaches.trans isIn skipped
    simp only [entriesWith] at read
    split at read
    next closed =>
      cases read
      exact .ofReaches (skipped.trans (Cursor.passes_char? closed).reaches)
    next =>
      obtain ⟨⟨name, next⟩, nameRead, read⟩ := Except.bind_eq_ok.1 read
      simp only at read
      obtain ⟨sign, signRead, read⟩ := Except.bind_eq_ok.1 read
      obtain ⟨⟨value, valueEnd⟩, valueRead, read⟩ := Except.bind_eq_ok.1 read
      obtain ⟨⟨others, last⟩, othersRead, read⟩ := Except.bind_eq_ok.1 read
      cases read
      have named := ((readsName_ident nameRead).covers startIn).before (reaches_char signRead)
      have both := named.append
        (expression_places comments sign value valueEnd (named.isIn startIn) valueRead)
      have head := (both.whole startIn).behind skipped
      exact head.append (ih valueEnd others _ (head.isIn isIn) othersRead)

theorem bodyWith_covers {α : Type} {item : Cursor → Reading (α × Cursor)}
    {outline : α → Outline} (each : Places text item fun value => [outline value]) (fuel : Nat)
    {members : List α} {attributes : List Attribute} {cursor : Cursor} (isIn : cursor.IsIn text)
    (read : bodyWith comments item fuel cursor = .ok ((members, attributes), after)) :
    Covers text cursor after (members.map outline) ∧
      Covers text cursor after (attributes.map Attribute.outline) := by
  induction fuel generalizing cursor members attributes with
  | zero => cases read
  | succ fuel ih =>
    have skipped := Cursor.reaches_skip comments cursor
    have startIn : (cursor.skip comments).IsIn text := Reaches.trans isIn skipped
    simp only [bodyWith] at read
    split at read
    next closed =>
      cases read
      have reaches := skipped.trans (Cursor.passes_char? closed).reaches
      exact ⟨.ofReaches reaches, .ofReaches reaches⟩
    next =>
      split at read
      next behind signs =>
        obtain ⟨⟨first, next⟩, firstRead, read⟩ := Except.bind_eq_ok.1 read
        obtain ⟨⟨⟨ownMembers, others⟩, last⟩, othersRead, read⟩ := Except.bind_eq_ok.1 read
        cases read
        have marked : (cursor.skip comments).Passes "@@".toList behind :=
          Cursor.passes_chars? signs
        have head := (attributeAt_covers startIn marked firstRead).behind skipped
        have behind := ih (head.isIn isIn) othersRead
        exact ⟨behind.1.behind head.reaches, head.append behind.2⟩
      next =>
        obtain ⟨⟨first, next⟩, firstRead, read⟩ := Except.bind_eq_ok.1 read
        obtain ⟨⟨⟨others, ownAttributes⟩, last⟩, othersRead, read⟩ := Except.bind_eq_ok.1 read
        cases read
        have head := (each _ first next startIn firstRead).behind skipped
        have behind := ih (head.isIn isIn) othersRead
        exact ⟨head.append behind.1, behind.2.behind head.reaches⟩

theorem enumMember_places :
    Places text (enumMember comments) fun enumMember => [enumMember.outline] := by
  intro cursor member after isIn read
  obtain ⟨⟨name, next⟩, nameRead, read⟩ := Except.bind_eq_ok.1 read
  obtain ⟨⟨attributes, last⟩, attributesRead, read⟩ := Except.bind_eq_ok.1 read
  cases read
  have named := (readsName_ident nameRead).covers isIn
  have parts :=
    named.append (fieldAttributes_places next attributes _ (named.isIn isIn) attributesRead)
  exact parts.whole isIn

theorem field_places : Places text (field comments) fun field => [field.outline] := by
  intro cursor value after isIn read
  obtain ⟨⟨name, next⟩, nameRead, read⟩ := Except.bind_eq_ok.1 read
  obtain ⟨⟨type, typeEnd⟩, typeRead, read⟩ := Except.bind_eq_ok.1 read
  obtain ⟨⟨attributes, last⟩, attributesRead, read⟩ := Except.bind_eq_ok.1 read
  cases read
  have named := (readsName_ident nameRead).covers isIn
  have typed := named.append (typeRef_places next type typeEnd (named.isIn isIn) typeRead)
  have parts :=
    typed.append (fieldAttributes_places typeEnd attributes _ (typed.isIn isIn) attributesRead)
  exact parts.whole isIn

section

variable {start : Cursor} (isIn : start.IsIn text) (opened : start.Reaches cursor)

include isIn opened

theorem configBlock_covers {block : ConfigBlock}
    (read : configBlock comments start.offset cursor = .ok (block, after)) :
    Covers text start after [block.outline] := by
  obtain ⟨⟨name, next⟩, nameRead, read⟩ := Except.bind_eq_ok.1 read
  simp only at read
  obtain ⟨brace, braceRead, read⟩ := Except.bind_eq_ok.1 read
  obtain ⟨⟨entries, last⟩, entriesRead, read⟩ := Except.bind_eq_ok.1 read
  cases read
  have named := (((readsName_ident nameRead).covers (Reaches.trans isIn opened)).behind
    opened).before (reaches_char braceRead)
  have parts := named.append (entriesWith_places _ brace entries _ (named.isIn isIn) entriesRead)
  exact parts.whole isIn

theorem enumDecl_covers {decl : EnumDecl}
    (read : enumDecl comments start.offset cursor = .ok (decl, after)) :
    Covers text start after [decl.outline] := by
  obtain ⟨⟨name, next⟩, nameRead, read⟩ := Except.bind_eq_ok.1 read
  simp only at read
  obtain ⟨brace, braceRead, read⟩ := Except.bind_eq_ok.1 read
  obtain ⟨⟨⟨members, attributes⟩, last⟩, bodyRead, read⟩ := Except.bind_eq_ok.1 read
  cases read
  have named := (((readsName_ident nameRead).covers (Reaches.trans isIn opened)).behind
    opened).before (reaches_char braceRead)
  have body := bodyWith_covers enumMember_places _ (named.isIn isIn) bodyRead
  refine .node isIn (named.append body.1).reaches (List.forall_mem_cons.2 ⟨?_, ?_⟩)
  · exact (named.append body.1).row
  · exact List.forall_mem_singleton.2 (named.append body.2).row

end

theorem basesWith_places (fuel : Nat) : Places text (basesWith comments fuel)
    fun bases => bases.map Ident.outline := by
  induction fuel with
  | zero =>
    intro cursor bases after _ read
    cases read
  | succ fuel ih =>
    intro cursor bases after isIn read
    obtain ⟨⟨first, next⟩, firstRead, read⟩ := Except.bind_eq_ok.1 read
    have named := (readsName_ident firstRead).covers isIn
    simp only at read
    split at read
    next =>
      cases read
      exact named
    next behind comma =>
      obtain ⟨⟨others, last⟩, othersRead, read⟩ := Except.bind_eq_ok.1 read
      cases read
      have head := named.before
        ((Cursor.reaches_skip comments next).trans (Cursor.passes_char? comma).reaches)
      exact head.append (ih behind others _ (head.isIn isIn) othersRead)

theorem bases_places : Places text (bases comments) fun bases => bases.map Ident.outline := by
  intro cursor names after isIn read
  unfold bases at read
  split at read
  next behind keyword =>
    have extending :=
      (Cursor.reaches_skip comments cursor).trans (Cursor.passes_keyword? keyword).reaches
    exact (basesWith_places _ behind names after (Reaches.trans isIn extending) read).behind
      extending
  next =>
    cases read
    exact .ofReaches (.refl _)

theorem functionParam_places : Places text (functionParam comments) FunctionParam.outlines := by
  intro cursor param after isIn read
  obtain ⟨⟨name, next⟩, nameRead, read⟩ := Except.bind_eq_ok.1 read
  simp only at read
  obtain ⟨colon, colonRead, read⟩ := Except.bind_eq_ok.1 read
  obtain ⟨⟨type, last⟩, typeRead, read⟩ := Except.bind_eq_ok.1 read
  cases read
  have named := ((readsName_ident nameRead).covers isIn).before (reaches_char colonRead)
  exact named.append (typeRef_places colon type _ (named.isIn isIn) typeRead)

theorem functionBody_places :
    Places text (functionBody comments) fun body => body.toList.map Expr.outline := by
  intro cursor body after isIn read
  obtain ⟨brace, braceRead, read⟩ := Except.bind_eq_ok.1 read
  have opening := reaches_char braceRead
  split at read
  next closed =>
    cases read
    exact .ofReaches (opening.trans
      ((Cursor.reaches_skip comments brace).trans (Cursor.passes_char? closed).reaches))
  next =>
    obtain ⟨⟨value, next⟩, valueRead, read⟩ := Except.bind_eq_ok.1 read
    simp only at read
    obtain ⟨closed, closing, read⟩ := Except.bind_eq_ok.1 read
    cases read
    have covers :=
      expression_places comments brace value next (Reaches.trans isIn opening) valueRead
    exact (covers.behind opening).before (reaches_char closing)

theorem reaches_positionalMark (cursor : Cursor) : cursor.Reaches (positionalMark cursor).2 := by
  unfold positionalMark
  split
  next sign =>
    split
    · exact (Cursor.passes_char? sign).reaches
    · exact .refl _
  next => exact .refl _

theorem attributeParam_places :
    Places text (attributeParam comments) AttributeParam.outlines := by
  intro cursor param after isIn read
  obtain ⟨⟨name, next⟩, nameRead, read⟩ := Except.bind_eq_ok.1 read
  simp only at read
  obtain ⟨colon, colonRead, read⟩ := Except.bind_eq_ok.1 read
  obtain ⟨⟨type, last⟩, typeRead, read⟩ := Except.bind_eq_ok.1 read
  cases read
  have marked := (Cursor.reaches_skip comments cursor).trans (reaches_positionalMark _)
  have named := (((readsName_ident nameRead).covers (Reaches.trans isIn marked)).behind
    marked).before (reaches_char colonRead)
  exact named.append (typeRef_places colon type _ (named.isIn isIn) typeRead)

theorem passes_attributeSigns? {signs : String} : ∀ {allowed : List String},
    attributeSigns? cursor allowed = some (signs, after) → cursor.Passes signs.toList after
  | [], found => nomatch found
  | first :: others, found => by
    rw [attributeSigns?] at found
    split at found
    next here =>
      cases found
      exact Cursor.passes_chars? here
    next => exact passes_attributeSigns? found

theorem passes_opening? {opening : Opening} : ∀ {allowed : List Opening},
    opening? cursor allowed = some (opening, after) → cursor.Passes opening.word.toList after
  | [], found => nomatch found
  | first :: others, found => by
    rw [opening?] at found
    split at found
    next here =>
      cases found
      exact Cursor.passes_keyword? here
    next => exact passes_opening? found

section

variable {start : Cursor} (isIn : start.IsIn text) (opened : start.Reaches cursor)

include isIn opened

theorem model_covers {isAbstract : Bool} {decl : Model}
    (read : model comments start.offset isAbstract cursor = .ok (decl, after)) :
    Covers text start after [decl.outline] := by
  obtain ⟨⟨name, next⟩, nameRead, read⟩ := Except.bind_eq_ok.1 read
  obtain ⟨⟨names, basesEnd⟩, basesRead, read⟩ := Except.bind_eq_ok.1 read
  simp only at read
  obtain ⟨brace, braceRead, read⟩ := Except.bind_eq_ok.1 read
  obtain ⟨⟨⟨fields, attributes⟩, last⟩, bodyRead, read⟩ := Except.bind_eq_ok.1 read
  cases read
  have named := ((readsName_ident nameRead).covers (Reaches.trans isIn opened)).behind opened
  have extending := (named.append
    (bases_places next names basesEnd (named.isIn isIn) basesRead)).before (reaches_char braceRead)
  have body := bodyWith_covers field_places _ (extending.isIn isIn) bodyRead
  refine .node isIn (extending.append body.1).reaches (List.forall_mem_cons.2 ⟨?_, ?_⟩)
  · exact (extending.append body.1).row
  · exact List.forall_mem_singleton.2 (extending.append body.2).row

theorem functionDecl_covers {decl : FunctionDecl}
    (read : functionDecl comments start.offset cursor = .ok (decl, after)) :
    Covers text start after [decl.outline] := by
  obtain ⟨⟨name, next⟩, nameRead, read⟩ := Except.bind_eq_ok.1 read
  simp only at read
  obtain ⟨parenthesis, parenthesisRead, read⟩ := Except.bind_eq_ok.1 read
  obtain ⟨⟨params, paramsEnd⟩, paramsRead, read⟩ := Except.bind_eq_ok.1 read
  simp only at read
  obtain ⟨colon, colonRead, read⟩ := Except.bind_eq_ok.1 read
  obtain ⟨⟨result, resultEnd⟩, resultRead, read⟩ := Except.bind_eq_ok.1 read
  obtain ⟨⟨value, last⟩, bodyRead, read⟩ := Except.bind_eq_ok.1 read
  cases read
  have named := (((readsName_ident nameRead).covers (Reaches.trans isIn opened)).behind
    opened).before (reaches_char parenthesisRead)
  have given : Covers text parenthesis paramsEnd (params.flatMap FunctionParam.outlines) :=
    items_places functionParam_places parenthesis params paramsEnd (named.isIn isIn) paramsRead
  have before := (named.append given).before (reaches_char colonRead)
  have typed := typeRef_places colon result resultEnd (before.isIn isIn) resultRead
  have body := functionBody_places resultEnd value _ ((before.append typed).isIn isIn) bodyRead
  exact (before.append (typed.append body)).whole isIn

theorem attributeDecl_covers {decl : AttributeDecl}
    (read : attributeDecl comments start.offset cursor = .ok (decl, after)) :
    Covers text start after [decl.outline] := by
  obtain ⟨⟨signs, next⟩, signsRead, read⟩ := Except.bind_eq_ok.1 read
  obtain ⟨⟨word, wordEnd⟩, wordRead, read⟩ := Except.bind_eq_ok.1 read
  simp only at read
  obtain ⟨parenthesis, parenthesisRead, read⟩ := Except.bind_eq_ok.1 read
  obtain ⟨⟨params, paramsEnd⟩, paramsRead, read⟩ := Except.bind_eq_ok.1 read
  obtain ⟨⟨restricted, last⟩, restrictionsRead, read⟩ := Except.bind_eq_ok.1 read
  cases read
  have nameStart := opened.trans (Cursor.reaches_skip comments cursor)
  have reads : ReadsName start
      ⟨signs ++ word, ⟨(cursor.skip comments).offset, wordEnd.offset⟩⟩ wordEnd
      (cursor.skip comments) := by
    refine ⟨nameStart, ?_, rfl⟩
    rw [String.toList_append]
    exact (passes_attributeSigns? (orMiss_eq_ok.1 signsRead)).append
      (Cursor.passes_identifier? (orMiss_eq_ok.1 wordRead))
  have named := (reads.covers isIn).before (reaches_char parenthesisRead)
  have given : Covers text parenthesis paramsEnd (params.flatMap AttributeParam.outlines) :=
    items_places attributeParam_places parenthesis params paramsEnd (named.isIn isIn) paramsRead
  have before := named.append given
  have parts := before.append
    (restrictions_places paramsEnd restricted _ (before.isIn isIn) restrictionsRead)
  exact parts.whole isIn

end

theorem declaration_places :
    Places text (declaration comments) fun declared => [declared.outline] := by
  intro cursor declared after isIn read
  obtain ⟨⟨opening, next⟩, openingRead, read⟩ := Except.bind_eq_ok.1 read
  have opened := (passes_opening? (orMiss_eq_ok.1 openingRead)).reaches
  simp only at read
  cases opening
  case dataSource =>
    obtain ⟨⟨block, last⟩, blockRead, read⟩ := Except.bind_eq_ok.1 read
    cases read
    exact configBlock_covers isIn opened blockRead
  case plugin =>
    obtain ⟨⟨block, last⟩, blockRead, read⟩ := Except.bind_eq_ok.1 read
    cases read
    exact configBlock_covers isIn opened blockRead
  case enum =>
    obtain ⟨⟨decl, last⟩, declRead, read⟩ := Except.bind_eq_ok.1 read
    cases read
    exact enumDecl_covers isIn opened declRead
  case abstract =>
    obtain ⟨keyword, keywordRead, read⟩ := Except.bind_eq_ok.1 read
    obtain ⟨⟨decl, last⟩, declRead, read⟩ := Except.bind_eq_ok.1 read
    cases read
    have both := (opened.trans (Cursor.reaches_skip comments next)).trans
      (Cursor.passes_keyword? (orMiss_eq_ok.1 keywordRead)).reaches
    exact model_covers isIn both declRead
  case model =>
    obtain ⟨⟨decl, last⟩, declRead, read⟩ := Except.bind_eq_ok.1 read
    cases read
    exact model_covers isIn opened declRead
  case function =>
    obtain ⟨⟨decl, last⟩, declRead, read⟩ := Except.bind_eq_ok.1 read
    cases read
    exact functionDecl_covers isIn opened declRead
  case attr =>
    obtain ⟨⟨decl, last⟩, declRead, read⟩ := Except.bind_eq_ok.1 read
    cases read
    exact attributeDecl_covers isIn opened declRead

theorem declarationsWith_row (fuel : Nat) : ∀ cursor declarations, cursor.IsIn text →
    declarationsWith comments fuel cursor = .ok declarations →
      Outline.IsRow text cursor.offset (declarations.map Declaration.outline)
        (byteLength text.toList) := by
  induction fuel with
  | zero =>
    intro cursor declarations _ read
    cases read
  | succ fuel ih =>
    intro cursor declarations isIn read
    have skipped := Cursor.reaches_skip comments cursor
    simp only [declarationsWith] at read
    split at read
    next =>
      cases read
      exact isIn.isBoundary.le_byteLength
    next =>
      obtain ⟨⟨first, next⟩, firstRead, read⟩ := Except.bind_eq_ok.1 read
      obtain ⟨others, othersRead, read⟩ := Except.bind_eq_ok.1 read
      cases read
      have head := (declaration_places _ first next (Reaches.trans isIn skipped) firstRead).behind
        skipped
      exact head.row.append (ih next others (head.isIn isIn) othersRead)

end Reading

theorem Document.outlines_isRow {comments : Bool} {text : String} {document : Document}
    (read : Document.readWith comments text = .ok document) :
    Outline.IsRow text 0 document.outlines (byteLength text.toList) := by
  obtain ⟨declarations, declared, same⟩ := Except.map_eq_ok.1 (Except.mapError_eq_ok.1 read)
  cases same
  exact Reading.declarationsWith_row _ (Cursor.ofText text) declarations (.ofText text) declared

end Schemata
