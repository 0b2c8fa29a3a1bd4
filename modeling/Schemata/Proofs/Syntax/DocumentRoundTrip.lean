import Schemata.Proofs.Syntax.BodyRoundTrip

set_option autoImplicit false

namespace Schemata

namespace Reading

open Cursor (Leads)

variable {comments : Bool} {chars rest : List Char}

theorem leads_space_name (comments : Bool) {name : String} (isName : IsName name)
    (rest : List Char) :
    Leads comments (' ' :: (name.toList ++ rest)) (name.toList ++ rest) :=
  (Cursor.leads_name comments isName rest).blank rfl

theorem leads_space_open (comments : Bool) (rest : List Char) :
    Leads comments (' ' :: '\x7b' :: rest) ('\x7b' :: rest) :=
  (Cursor.leads_of_ne_slash (by decide) (by decide)).blank rfl

theorem header_print (comments : Bool) {name : Ident} (isName : IsName name.name)
    (what start : Expected) (rest : List Char) (offset : Nat) : ∃ read next after,
      ident comments what ⟨offset, ' ' :: (name.name.toList ++ ' ' :: '\x7b' :: rest)⟩ =
        .ok (read, next) ∧ char comments '\x7b' start next = .ok ⟨after, rest⟩ ∧
        read.erase = name.erase := by
  have stop : (' ' :: '\x7b' :: rest).head?.any isIdentPart = false := rfl
  obtain ⟨read, next, nameRead, same⟩ :=
    ident_name isName (leads_space_name comments isName _) stop what offset
  obtain ⟨after, opened⟩ := char_of_leads (leads_space_open comments rest) start next
  exact ⟨read, _, after, nameRead, opened, same⟩

theorem configBlock_print (comments : Bool) {block : ConfigBlock} (wellFormed : block.WellFormed)
    (start : Nat) (rest : List Char) (offset : Nat) : ∃ read after,
      configBlock comments start ⟨offset, ' ' :: (block.name.name.toList ++ ' ' :: '\x7b' :: '\n' ::
        (lines (block.entries.map entryText) ++ '\x7d' :: rest))⟩ = .ok (read, ⟨after, rest⟩) ∧
        read.erase = block.erase := by
  obtain ⟨name, next, behind, nameRead, opened, sameName⟩ :=
    header_print comments wellFormed.name .blockName .blockStart
      ('\n' :: (lines (block.entries.map entryText) ++ '\x7d' :: rest)) offset
  -- There is fuel for all entries, since every line takes a character.
  have bound := length_le_lines (block.entries.map entryText)
  rw [List.length_map] at bound
  obtain ⟨entries, after, entriesRead, same⟩ :=
    entriesWith_print comments wellFormed.entries rest ['\n'] behind
      (('\n' :: (lines (block.entries.map entryText) ++ '\x7d' :: rest)).length + 1)
      allSkipped_newline (by simp only [List.length_cons, List.length_append]; omega)
  rw [List.singleton_append] at entriesRead
  refine ⟨⟨name, entries, ⟨start, after⟩⟩, after, ?_, ?_⟩
  · simp only [configBlock, nameRead, opened, entriesRead, Except.ok_bind]
  · simp only [ConfigBlock.erase, sameName, same]

theorem enumDecl_print (comments : Bool) {decl : EnumDecl} (wellFormed : decl.WellFormed)
    (start : Nat) (rest : List Char) (offset : Nat) : ∃ read after,
      enumDecl comments start ⟨offset, ' ' :: (decl.name.name.toList ++ ' ' :: '\x7b' :: '\n' ::
        (lines (decl.members.map memberText) ++
          ((Attribute.printBody decl.members.length decl.attributes).toList ++ '\x7d' :: rest)))⟩ =
        .ok (read, ⟨after, rest⟩) ∧ read.erase = decl.erase := by
  obtain ⟨name, next, behind, nameRead, opened, sameName⟩ :=
    header_print comments wellFormed.name .enumName .enumStart
      ('\n' :: (lines (decl.members.map memberText) ++
        ((Attribute.printBody decl.members.length decl.attributes).toList ++ '\x7d' :: rest)))
      offset
  have each (member : EnumMember) (found : member ∈ decl.members) :
      ReadsMember comments (enumMember comments) EnumMember.erase (memberText member) member :=
    readsMember_enumMember (wellFormed.members member found)
  obtain ⟨members, attributes, after, bodyRead, sameMembers, sameAttributes⟩ :=
    body_print each wellFormed.attributes rest behind
  refine ⟨⟨name, members, attributes, ⟨start, after⟩⟩, after, ?_, ?_⟩
  · simp only [enumDecl, nameRead, opened, bodyRead, Except.ok_bind]
  · simp only [EnumDecl.erase, sameName, sameMembers, sameAttributes]

theorem basesWith_print (comments : Bool) {names : List Ident} (nonempty : names ≠ [])
    (wellFormed : ∀ name ∈ names, IsName name.name) (rest : List Char) :
    ∀ offset fuel, names.length ≤ fuel → ∃ read after,
      basesWith comments fuel ⟨offset, ' ' :: ((commaSeparated (names.map Ident.name)).toList ++
        ' ' :: '\x7b' :: rest)⟩ = .ok (read, ⟨after, ' ' :: '\x7b' :: rest⟩) ∧
        read.map Ident.erase = names.map Ident.erase := by
  induction names with
  | nil => exact absurd rfl nonempty
  | cons first others ih =>
    intro offset fuel enough
    obtain ⟨fuel, rfl⟩ : ∃ less, fuel = less + 1 := ⟨fuel - 1, by simp at enough; omega⟩
    obtain ⟨isName, othersFormed⟩ := List.forall_mem_cons.1 wellFormed
    cases others with
    | nil =>
      have stop : (' ' :: '\x7b' :: rest).head?.any isIdentPart = false := rfl
      obtain ⟨read, next, nameRead, same⟩ :=
        ident_name isName (leads_space_name comments isName _) stop .baseName offset
      obtain ⟨start, skipped⟩ := leads_space_open comments rest next
      have only : commaSeparated ([first].map Ident.name) = first.name := rfl
      have noComma : (⟨start, '\x7b' :: rest⟩ : Cursor).char? ',' = none := rfl
      refine ⟨[read], next, ?_, by simp [same]⟩
      simp only [basesWith, only, nameRead, skipped, noComma, Except.ok_bind]
    | cons second behind =>
      have whole : (commaSeparated ((first :: second :: behind).map Ident.name)).toList ++
          ' ' :: '\x7b' :: rest = first.name.toList ++ ',' :: ' ' ::
            ((commaSeparated ((second :: behind).map Ident.name)).toList ++
              ' ' :: '\x7b' :: rest) := by
        rw [List.map_cons, List.map_cons, toList_commaSeparated_cons_cons]
        simp
      rw [whole]
      generalize text : ' ' :: ((commaSeparated ((second :: behind).map Ident.name)).toList ++
        ' ' :: '\x7b' :: rest) = more at *
      have stop : (',' :: more).head?.any isIdentPart = false := rfl
      obtain ⟨read, next, nameRead, same⟩ :=
        ident_name isName (leads_space_name comments isName _) stop .baseName offset
      have comma : Leads comments (',' :: more) (',' :: more) :=
        Cursor.leads_of_ne_slash (by decide) (by decide)
      obtain ⟨start, skipped⟩ := comma next
      obtain ⟨names, after, namesRead, sameNames⟩ :=
        ih (by simp) othersFormed (start + ','.utf8Size) fuel (by simp at enough ⊢; omega)
      refine ⟨read :: names, after, ?_, by simp [same, sameNames]⟩
      simp only [basesWith, nameRead, skipped, Cursor.char?_cons_self, namesRead, Except.ok_bind]

def basesText (names : List Ident) : List Char :=
  if names.isEmpty then []
  else ' ' :: ("extends".toList ++ ' ' :: (commaSeparated (names.map Ident.name)).toList)

theorem bases_print (comments : Bool) {names : List Ident}
    (wellFormed : ∀ name ∈ names, IsName name.name) (rest : List Char) (offset : Nat) :
    ∃ read after, bases comments ⟨offset, basesText names ++ ' ' :: '\x7b' :: rest⟩ =
        .ok (read, ⟨after, ' ' :: '\x7b' :: rest⟩) ∧
        read.map Ident.erase = names.map Ident.erase := by
  by_cases empty : names = []
  · subst empty
    have text : basesText [] ++ ' ' :: '\x7b' :: rest = ' ' :: '\x7b' :: rest := rfl
    obtain ⟨start, skipped⟩ := leads_space_open comments rest offset
    have noKeyword : (⟨start, '\x7b' :: rest⟩ : Cursor).keyword? "extends" = none := rfl
    refine ⟨[], offset, ?_, rfl⟩
    simp only [bases, text, skipped, noKeyword]
  · have text : basesText names ++ ' ' :: '\x7b' :: rest = ' ' :: ("extends".toList ++
        ' ' :: ((commaSeparated (names.map Ident.name)).toList ++ ' ' :: '\x7b' :: rest)) := by
      simp [basesText, empty]
    have solid (behind : List Char) : Leads comments (' ' :: ("extends".toList ++ behind))
        ("extends".toList ++ behind) :=
      (Cursor.leads_of_ne_slash (by decide) (by decide)).blank rfl
    obtain ⟨start, skipped⟩ := solid (' ' :: ((commaSeparated (names.map Ident.name)).toList ++
      ' ' :: '\x7b' :: rest)) offset
    have stop : (' ' :: ((commaSeparated (names.map Ident.name)).toList ++
      ' ' :: '\x7b' :: rest)).head?.any isIdentPart = false := rfl
    have keyword := Cursor.keyword?_word "extends" start stop
    have bound := length_le_commaSeparated (names.map Ident.name) (by
      intro text found
      obtain ⟨name, among, rfl⟩ := List.mem_map.1 found
      exact (Starts.of_isName (wellFormed name among)).length_pos)
    rw [List.length_map] at bound
    obtain ⟨read, after, basesRead, same⟩ := basesWith_print comments empty wellFormed rest
      (start + byteLength "extends".toList)
      ((' ' :: ((commaSeparated (names.map Ident.name)).toList ++
        ' ' :: '\x7b' :: rest)).length + 1)
      (by simp only [List.length_cons, List.length_append]; omega)
    refine ⟨read, after, ?_, same⟩
    simp only [bases, text, skipped, keyword, basesRead]

theorem model_print (comments : Bool) {decl : Model} (wellFormed : decl.WellFormed) (start : Nat)
    (rest : List Char) (offset : Nat) : ∃ read after,
      model comments start decl.isAbstract ⟨offset, ' ' :: (decl.name.name.toList ++
        (basesText decl.bases ++ ' ' :: '\x7b' :: '\n' :: (lines (decl.fields.map fieldText) ++
          ((Attribute.printBody decl.fields.length decl.attributes).toList ++ '\x7d' :: rest))))⟩ =
        .ok (read, ⟨after, rest⟩) ∧ read.erase = decl.erase := by
  have each (value : Field) (found : value ∈ decl.fields) :
      ReadsMember comments (field comments) Field.erase (fieldText value) value :=
    readsMember_field (wellFormed.fields value found)
  have bodyRead := body_print each wellFormed.attributes rest
  generalize '\n' :: (lines (decl.fields.map fieldText) ++
    ((Attribute.printBody decl.fields.length decl.attributes).toList ++ '\x7d' :: rest)) = more
    at *
  -- With bases or without them, a blank follows the name.
  have stop : (basesText decl.bases ++ ' ' :: '\x7b' :: more).head?.any isIdentPart = false := by
    unfold basesText
    split <;> rfl
  obtain ⟨name, next, nameRead, sameName⟩ := ident_name wellFormed.name
    (leads_space_name comments wellFormed.name _) stop .modelName offset
  obtain ⟨names, behind, basesRead, sameBases⟩ := bases_print comments wellFormed.bases more next
  obtain ⟨inside, opened⟩ := char_of_leads (leads_space_open comments more) .modelStart behind
  obtain ⟨fields, attributes, after, bodyRead, sameFields, sameAttributes⟩ := bodyRead inside
  refine ⟨⟨name, decl.isAbstract, names, fields, attributes, ⟨start, after⟩⟩, after, ?_, ?_⟩
  · simp only [model, nameRead, basesRead, opened, bodyRead, Except.ok_bind]
  · simp only [Model.erase, sameName, sameBases, sameFields, sameAttributes]

def functionBodyText (body : Option Expr) : List Char :=
  match body with
  | some value => ['\n', ' ', ' ', ' ', ' '] ++ (value.print.toList ++ ['\n', '\x7d'])
  | none => ['\x7d']

theorem functionBody_print (comments : Bool) {body : Option Expr}
    (wellFormed : ∀ value ∈ body, value.WellFormed) (rest : List Char) (offset : Nat) :
    ∃ read after, functionBody comments ⟨offset, ' ' :: '\x7b' :: (functionBodyText body ++ rest)⟩ =
        .ok (read, ⟨after, rest⟩) ∧ read.map Expr.erase = body.map Expr.erase := by
  obtain ⟨inside, opened⟩ :=
    char_of_leads (leads_space_open comments (functionBodyText body ++ rest)) .bodyStart offset
  cases body with
  | none =>
    have close : Leads comments (functionBodyText none ++ rest) ('\x7d' :: rest) :=
      Cursor.leads_of_ne_slash (by decide) (by decide)
    obtain ⟨start, skipped⟩ := close inside
    refine ⟨none, start + '\x7d'.utf8Size, ?_, rfl⟩
    simp only [functionBody, opened, skipped, Cursor.char?_cons_self, Except.ok_bind]
  | some value =>
    have formed := wellFormed value rfl
    have text : functionBodyText (some value) ++ rest =
        '\n' :: ' ' :: ' ' :: ' ' :: ' ' :: (value.print.toList ++ '\n' :: '\x7d' :: rest) := by
      simp [functionBodyText]
    have solid : Leads comments (functionBodyText (some value) ++ rest)
        (value.print.toList ++ '\n' :: '\x7d' :: rest) := by
      rw [text]
      exact (leads_print comments formed _).blanks
        (allSkipped_newline.append allSkipped_indent)
    -- The body is no closing brace, since no expression starts with one.
    obtain ⟨start, skipped⟩ := solid inside
    have noClose : (⟨start, value.print.toList ++ '\n' :: '\x7d' :: rest⟩ : Cursor).char? '\x7d' =
        none := by
      have back : ReadsBack comments value := readsBack formed
      exact Cursor.char?_of_head (((back.starts 0).append _).head_ne (by decide))
    have ahead : BodyAhead comments ('\x7d' :: rest) := bodyAhead_close
    obtain ⟨read, next, valueRead, same⟩ := expression_print formed solid (ahead.ends 1) inside
    have close : Leads comments ('\n' :: '\x7d' :: rest) ('\x7d' :: rest) :=
      (Cursor.leads_of_ne_slash (by decide) (by decide)).blank rfl
    obtain ⟨after, closed⟩ := char_of_leads close .bodyEnd next
    refine ⟨some read, after, ?_, by simp [same]⟩
    simp only [functionBody, opened, skipped, noClose, valueRead, closed, Except.ok_bind]

def paramsText (params : List String) (rest : List Char) : List Char :=
  '(' :: ((commaSeparated params).toList ++ ')' :: rest)

theorem leads_paramsText (comments : Bool) (params : List String) (rest : List Char) :
    Leads comments (paramsText params rest) (paramsText params rest) :=
  Cursor.leads_of_ne_slash (by decide) (by decide)

theorem functionDecl_print (comments : Bool) {decl : FunctionDecl} (wellFormed : decl.WellFormed)
    (start : Nat) (rest : List Char) (offset : Nat) : ∃ read after,
      functionDecl comments start ⟨offset, ' ' :: (decl.name.name.toList ++
        paramsText (decl.params.map FunctionParam.print) (':' :: ' ' :: (decl.result.print.toList ++
          ' ' :: '\x7b' :: (functionBodyText decl.body ++ rest))))⟩ = .ok (read, ⟨after, rest⟩) ∧
        read.erase = decl.erase := by
  have bodyRead := functionBody_print comments wellFormed.body rest
  have typeEnds : TypeEnds (' ' :: '\x7b' :: (functionBodyText decl.body ++ rest)) :=
    ⟨rfl, by simp, by simp⟩
  generalize ' ' :: '\x7b' :: (functionBodyText decl.body ++ rest) = bodyText at *
  have spaced : Leads comments (' ' :: (decl.result.print.toList ++ bodyText))
      (decl.result.print.toList ++ bodyText) := (leads_typeRef wellFormed.result _).blank rfl
  have resultRead := typeRef_print wellFormed.result spaced typeEnds
  have colon : Leads comments (':' :: ' ' :: (decl.result.print.toList ++ bodyText))
      (':' :: ' ' :: (decl.result.print.toList ++ bodyText)) :=
    Cursor.leads_of_ne_slash (by decide) (by decide)
  generalize ' ' :: (decl.result.print.toList ++ bodyText) = resultText at *
  have stop : (paramsText (decl.params.map FunctionParam.print)
      (':' :: resultText)).head?.any isIdentPart = false := rfl
  obtain ⟨name, next, nameRead, sameName⟩ := ident_name wellFormed.name
    (leads_space_name comments wellFormed.name _) stop .functionName offset
  obtain ⟨inside, opened⟩ := char_of_leads
    (leads_paramsText comments (decl.params.map FunctionParam.print) (':' :: resultText))
    .paramsStart next
  have each (param : FunctionParam) (found : param ∈ decl.params) :
      ReadsItem comments ')' (functionParam comments) FunctionParam.erase param.print.toList
        param := readsItem_functionParam (wellFormed.params param found)
  obtain ⟨params, behind, paramsRead, sameParams⟩ :=
    items_commaSeparated (.inl rfl) each .commaOrParenthesis (':' :: resultText) inside
  obtain ⟨typed, separated⟩ := char_of_leads colon .resultColon behind
  obtain ⟨result, resultEnd, resultRead, sameResult⟩ := resultRead typed
  obtain ⟨value, after, bodyRead, sameBody⟩ := bodyRead resultEnd
  refine ⟨⟨name, params, result, value, ⟨start, after⟩⟩, after, ?_, ?_⟩
  · simp only [functionDecl, nameRead, opened, paramsRead, separated, resultRead, bodyRead,
      Except.ok_bind]
  · simp only [FunctionDecl.erase, sameName, sameParams, sameResult, sameBody]

theorem attributeSigns?_signs {signs word : String} (among : signs ∈ ["@@@", "@@", "@"])
    (isName : IsName word) (rest : List Char) (offset : Nat) : ∃ after,
      attributeSigns? ⟨offset, signs.toList ++ (word.toList ++ rest)⟩ ["@@@", "@@", "@"] =
        some (signs, ⟨after, word.toList ++ rest⟩) := by
  obtain ⟨first, others, chars, start⟩ := isName.exists_cons
  have noSign : first ≠ '@' := ne_of_test start (by decide)
  have three : "@@@".toList = ['@', '@', '@'] := rfl
  have two : "@@".toList = ['@', '@'] := rfl
  have one : "@".toList = ['@'] := rfl
  simp only [List.mem_cons, List.not_mem_nil, or_false] at among
  refine ⟨offset + byteLength signs.toList, ?_⟩
  -- Longer signs are looked for first, and a name behind the signs is no sign.
  rcases among with rfl | rfl | rfl
  · rw [attributeSigns?, Cursor.chars?_append]
  · have noThree : ¬ "@@@".toList <+: "@@".toList ++ (word.toList ++ rest) := by
      rw [three, two, chars]
      simpa using Ne.symm noSign
    rw [attributeSigns?, Cursor.chars?_eq_none noThree, attributeSigns?, Cursor.chars?_append]
  · have noThree : ¬ "@@@".toList <+: "@".toList ++ (word.toList ++ rest) := by
      rw [three, one, chars]
      simp [Ne.symm noSign]
    have noTwo : ¬ "@@".toList <+: "@".toList ++ (word.toList ++ rest) := by
      rw [two, one, chars]
      simpa using Ne.symm noSign
    rw [attributeSigns?, Cursor.chars?_eq_none noThree, attributeSigns?,
      Cursor.chars?_eq_none noTwo, attributeSigns?, Cursor.chars?_append]

/-- Behind the end of a declaration, another one follows, or nothing. -/
def DocumentAhead (comments : Bool) (rest : List Char) : Prop :=
  ∃ next, Leads comments rest next ∧
    (next = [] ∨ ∃ first others, next = first :: others ∧ isIdentStart first = true)

theorem DocumentAhead.wordEnds (ahead : DocumentAhead comments rest) :
    WordEnds comments ('\n' :: rest) := by
  obtain ⟨next, leads, form⟩ := ahead
  refine ⟨rfl, nofun, next, leads.blank rfl, ?_⟩
  rcases form with rfl | ⟨first, others, rfl, start⟩
  · decide
  · exact fun same => ne_of_test start (by decide) (Option.some.inj same)

theorem DocumentAhead.noRestriction (ahead : DocumentAhead comments rest) :
    ∃ next, Leads comments ('\n' :: rest) next ∧
      ∀ offset, (⟨offset, next⟩ : Cursor).chars? ['@', '@', '@'] = none := by
  obtain ⟨next, leads, form⟩ := ahead
  refine ⟨next, leads.blank rfl, ?_⟩
  intro offset
  rcases form with rfl | ⟨first, others, rfl, start⟩
  · rfl
  · apply Cursor.chars?_eq_none
    rintro ⟨behind, same⟩
    exact ne_of_test start (by decide) (List.cons.inj same).1.symm

theorem restrictions_print {attributes : List Attribute}
    (wellFormed : ∀ applied ∈ attributes, applied.WellFormed "@@@")
    (ahead : DocumentAhead comments rest) (offset : Nat) : ∃ read after,
      restrictions comments
        ⟨offset, (Attribute.printTrailing attributes).toList ++ '\n' :: rest⟩ =
          .ok (read, ⟨after, '\n' :: rest⟩) ∧
        read.map Attribute.erase = attributes.map Attribute.erase := by
  refine attributesWith_print (finds_chars rfl) wellFormed ahead.wordEnds ahead.noRestriction
    offset _ ?_
  have bound := length_le_printTrailing attributes
  simp only [List.length_append]
  omega

theorem attributeDecl_print {decl : AttributeDecl} (wellFormed : decl.WellFormed)
    (ahead : DocumentAhead comments rest) (start : Nat) (offset : Nat) : ∃ read after,
      attributeDecl comments start ⟨offset, ' ' :: (decl.name.name.toList ++
        paramsText (decl.params.map AttributeParam.print)
          ((Attribute.printTrailing decl.restrictions).toList ++ '\n' :: rest))⟩ =
        .ok (read, ⟨after, '\n' :: rest⟩) ∧ read.erase = decl.erase := by
  obtain ⟨signs, among, word, isName, named⟩ := wellFormed.name
  have restricted := restrictions_print wellFormed.restrictions ahead
  have each (param : AttributeParam) (found : param ∈ decl.params) :
      ReadsItem comments ')' (attributeParam comments) AttributeParam.erase param.print.toList
        param := readsItem_attributeParam (wellFormed.params param found)
  generalize (Attribute.printTrailing decl.restrictions).toList ++ '\n' :: rest = more at *
  have stop : (paramsText (decl.params.map AttributeParam.print) more).head?.any isIdentPart =
    false := rfl
  have isSign : signs.toList.head? = some '@' := by
    simp only [List.mem_cons, List.not_mem_nil, or_false] at among
    rcases among with rfl | rfl | rfl <;> rfl
  have spaced (behind : List Char) : Leads comments (' ' :: (signs.toList ++ behind))
      (signs.toList ++ behind) := (leads_signs isSign behind).blank rfl
  rw [named, String.toList_append, List.append_assoc]
  obtain ⟨nameStart, skipped⟩ :=
    spaced (word.toList ++ paramsText (decl.params.map AttributeParam.print) more) offset
  obtain ⟨behind, signsRead⟩ := attributeSigns?_signs among isName
    (paramsText (decl.params.map AttributeParam.print) more) nameStart
  have wordRead := Cursor.identifier?_name behind isName stop
  obtain ⟨inside, opened⟩ := char_of_leads
    (leads_paramsText comments (decl.params.map AttributeParam.print) more) .paramsStart
    (behind + byteLength word.toList)
  obtain ⟨params, paramsEnd, paramsRead, sameParams⟩ :=
    items_commaSeparated (.inl rfl) each .commaOrParenthesis more inside
  obtain ⟨restrictions, after, restrictionsRead, same⟩ := restricted paramsEnd
  refine ⟨⟨⟨signs ++ word, ⟨nameStart, behind + byteLength word.toList⟩⟩, params, restrictions,
    ⟨start, after⟩⟩, after, ?_, ?_⟩
  · simp only [attributeDecl, skipped, signsRead, wordRead, orMiss, opened, paramsRead,
      restrictionsRead, Except.ok_bind]
  · simp only [AttributeDecl.erase, Ident.erase, named, sameParams, same]

theorem isName_word (opening : Opening) : IsName opening.word := by
  cases opening <;> exact .of_all rfl rfl

theorem opening?_word (opening : Opening) (stop : rest.head?.any isIdentPart = false)
    (offset : Nat) {openings : List Opening} (among : opening ∈ openings) :
    opening? ⟨offset, opening.word.toList ++ rest⟩ openings =
      some (opening, ⟨offset + byteLength opening.word.toList, rest⟩) := by
  induction openings with
  | nil => cases among
  | cons other others ih =>
    rw [opening?]
    by_cases same : opening = other
    · subst same
      rw [Cursor.keyword?_word opening.word offset stop]
    · -- No opening word is read as another one that comes earlier.
      have differ : opening.word ≠ other.word := by
        revert same
        cases opening <;> cases other <;> decide
      rw [Cursor.keyword?_name offset (isName_word opening) (isName_word other).parts differ stop]
      exact ih ((List.mem_cons.1 among).resolve_left same)

theorem opening_read {opening : Opening} {word : String} (isWord : opening.word = word)
    (rest : List Char) (offset : Nat) :
    orMiss (opening? ⟨offset, word.toList ++ ' ' :: rest⟩ Opening.all)
      ⟨offset, word.toList ++ ' ' :: rest⟩ .declaration =
        .ok (opening, ⟨offset + byteLength word.toList, ' ' :: rest⟩) := by
  subst isWord
  have stop : (' ' :: rest).head?.any isIdentPart = false := rfl
  rw [opening?_word opening stop offset (by cases opening <;> decide), orMiss]

theorem toList_open : " \x7b\n".toList = [' ', '\x7b', '\n'] := rfl

theorem toList_close : "\x7d\n".toList = ['\x7d', '\n'] := rfl

theorem toList_space : " ".toList = [' '] := rfl

theorem toList_print_configBlock (keyword : String) (block : ConfigBlock) (rest : List Char) :
    (block.print keyword).toList ++ rest = keyword.toList ++
      ' ' :: (block.name.name.toList ++ ' ' :: '\x7b' :: '\n' ::
        (lines (block.entries.map entryText) ++ '\x7d' :: '\n' :: rest)) := by
  have entries : (String.join (block.entries.map fun entry =>
      bodyLine (entry.name.name ++ " = " ++ entry.value.print))).toList =
        lines (block.entries.map entryText) := toList_join_lines entryText block.entries
  unfold ConfigBlock.print
  simp only [String.toList_append, entries, toList_open, toList_close,
    toList_space, List.append_assoc, List.cons_append, List.nil_append]

theorem toList_print_enumDecl (decl : EnumDecl) (rest : List Char) :
    decl.print.toList ++ rest = "enum".toList ++
      ' ' :: (decl.name.name.toList ++ ' ' :: '\x7b' :: '\n' ::
        (lines (decl.members.map memberText) ++
          ((Attribute.printBody decl.members.length decl.attributes).toList ++
            '\x7d' :: '\n' :: rest))) := by
  have members : (String.join (decl.members.map fun enumMember =>
      bodyLine (enumMember.name.name ++ Attribute.printTrailing enumMember.attributes))).toList =
        lines (decl.members.map memberText) := toList_join_lines memberText decl.members
  have keyword : "enum ".toList = "enum".toList ++ [' '] := rfl
  unfold EnumDecl.print
  simp only [String.toList_append, members, keyword, toList_open, toList_close,
    List.append_assoc, List.cons_append, List.nil_append]

theorem toList_bases (names : List Ident) :
    (if names.isEmpty then ""
      else " extends " ++ commaSeparated (names.map Ident.name)).toList = basesText names := by
  have keyword : " extends ".toList = ' ' :: ("extends".toList ++ [' ']) := rfl
  unfold basesText
  split
  · rfl
  · simp only [String.toList_append, keyword, List.append_assoc, List.cons_append, List.nil_append]

theorem toList_print_model (decl : Model) (rest : List Char) :
    decl.print.toList ++ rest = (if decl.isAbstract then "abstract " else "").toList ++
      ("model".toList ++ ' ' :: (decl.name.name.toList ++ (basesText decl.bases ++
        ' ' :: '\x7b' :: '\n' :: (lines (decl.fields.map fieldText) ++
          ((Attribute.printBody decl.fields.length decl.attributes).toList ++
            '\x7d' :: '\n' :: rest))))) := by
  have fields : (String.join (decl.fields.map fun field => bodyLine (field.name.name ++ " " ++
      field.type.print ++ Attribute.printTrailing field.attributes))).toList =
        lines (decl.fields.map fieldText) := toList_join_lines fieldText decl.fields
  have keyword : "model ".toList = "model".toList ++ [' '] := rfl
  unfold Model.print
  simp only [String.toList_append, fields, toList_bases, keyword, toList_open,
    toList_close, List.append_assoc, List.cons_append, List.nil_append]

theorem toList_print_functionDecl (decl : FunctionDecl) (rest : List Char) :
    decl.print.toList ++ rest = "function".toList ++ ' ' :: (decl.name.name.toList ++
      paramsText (decl.params.map FunctionParam.print) (':' :: ' ' :: (decl.result.print.toList ++
        ' ' :: '\x7b' :: (functionBodyText decl.body ++ '\n' :: rest)))) := by
  obtain ⟨name, params, result, body, span⟩ := decl
  have keyword : "function ".toList = "function".toList ++ [' '] := rfl
  have opening : "(".toList = ['('] := rfl
  have closing : "): ".toList = [')', ':', ' '] := rfl
  have empty : " \x7b\x7d\n".toList = [' ', '\x7b', '\x7d', '\n'] := rfl
  have indent : "    ".toList = [' ', ' ', ' ', ' '] := rfl
  have newline : "\n".toList = ['\n'] := rfl
  unfold FunctionDecl.print
  cases body with
  | none =>
    simp only [paramsText, functionBodyText, String.toList_append, keyword, opening, closing, empty,
      List.append_assoc, List.cons_append, List.nil_append]
  | some value =>
    simp only [paramsText, functionBodyText, bodyLine, String.toList_append, keyword, opening,
      closing, toList_open, toList_close, indent, newline, List.append_assoc, List.cons_append,
      List.nil_append]

theorem toList_print_attributeDecl (decl : AttributeDecl) (rest : List Char) :
    decl.print.toList ++ rest = "attribute".toList ++ ' ' :: (decl.name.name.toList ++
      paramsText (decl.params.map AttributeParam.print)
        ((Attribute.printTrailing decl.restrictions).toList ++ '\n' :: rest)) := by
  have keyword : "attribute ".toList = "attribute".toList ++ [' '] := rfl
  have opening : "(".toList = ['('] := rfl
  have closing : ")".toList = [')'] := rfl
  have newline : "\n".toList = ['\n'] := rfl
  unfold AttributeDecl.print
  simp only [paramsText, String.toList_append, keyword, opening, closing, newline,
    List.append_assoc, List.cons_append, List.nil_append]

theorem modelDeclaration_print {decl : Model} (wellFormed : decl.WellFormed) (offset : Nat) :
    ∃ read after, declaration comments ⟨offset, (Declaration.model decl).print.toList ++ rest⟩ =
      .ok (read, ⟨after, '\n' :: rest⟩) ∧ read.erase = (Declaration.model decl).erase := by
  have whole := toList_print_model decl rest
  have modelRead := model_print comments wellFormed offset ('\n' :: rest)
  generalize decl.name.name.toList ++ (basesText decl.bases ++ ' ' :: '\x7b' :: '\n' ::
    (lines (decl.fields.map fieldText) ++
      ((Attribute.printBody decl.fields.length decl.attributes).toList ++
        '\x7d' :: '\n' :: rest))) = more at *
  have stop : (' ' :: more).head?.any isIdentPart = false := rfl
  rw [Declaration.print]
  -- An abstract model opens with a word of its own, and the word `model` comes after it.
  cases concrete : decl.isAbstract with
  | false =>
    have opened := opening_read (show Opening.model.word = "model" from rfl)
    have empty : (if false = true then "abstract " else "").toList = [] := rfl
    rw [concrete] at whole modelRead
    rw [empty, List.nil_append] at whole
    obtain ⟨read, after, declRead, same⟩ := modelRead (offset + byteLength "model".toList)
    refine ⟨.model read, after, ?_, by simp only [Declaration.erase, same]⟩
    rw [whole, declaration, opened]
    simp only [Except.ok_bind, declRead]
  | true =>
    have opened := opening_read (show Opening.abstract.word = "abstract" from rfl)
    have word : (if true = true then "abstract " else "").toList = "abstract".toList ++ [' '] := rfl
    rw [concrete] at whole modelRead
    rw [word, List.append_assoc, List.singleton_append] at whole
    have solid : Leads comments (' ' :: ("model".toList ++ ' ' :: more))
        ("model".toList ++ ' ' :: more) :=
      (Cursor.leads_of_ne_slash (by decide) (by decide)).blank rfl
    obtain ⟨start, skipped⟩ := solid (offset + byteLength "abstract".toList)
    have keyword := Cursor.keyword?_word "model" start stop
    obtain ⟨read, after, declRead, same⟩ := modelRead (start + byteLength "model".toList)
    refine ⟨.model read, after, ?_, by simp only [Declaration.erase, same]⟩
    rw [whole, declaration, opened]
    simp only [Except.ok_bind, skipped, keyword, orMiss, declRead]

theorem declaration_print {declared : Declaration} (wellFormed : declared.WellFormed)
    (ahead : DocumentAhead comments rest) (offset : Nat) : ∃ read after,
      declaration comments ⟨offset, declared.print.toList ++ rest⟩ =
        .ok (read, ⟨after, '\n' :: rest⟩) ∧ read.erase = declared.erase := by
  cases declared with
  | dataSource block =>
    have opened := opening_read (show Opening.dataSource.word = "datasource" from rfl)
    obtain ⟨read, after, blockRead, same⟩ := configBlock_print comments wellFormed offset
      ('\n' :: rest) (offset + byteLength "datasource".toList)
    refine ⟨.dataSource read, after, ?_, by simp only [Declaration.erase, same]⟩
    rw [Declaration.print, toList_print_configBlock, declaration, opened]
    simp only [Except.ok_bind, blockRead]
  | plugin block =>
    have opened := opening_read (show Opening.plugin.word = "plugin" from rfl)
    obtain ⟨read, after, blockRead, same⟩ := configBlock_print comments wellFormed offset
      ('\n' :: rest) (offset + byteLength "plugin".toList)
    refine ⟨.plugin read, after, ?_, by simp only [Declaration.erase, same]⟩
    rw [Declaration.print, toList_print_configBlock, declaration, opened]
    simp only [Except.ok_bind, blockRead]
  | enum decl =>
    have opened := opening_read (show Opening.enum.word = "enum" from rfl)
    obtain ⟨read, after, declRead, same⟩ := enumDecl_print comments wellFormed offset
      ('\n' :: rest) (offset + byteLength "enum".toList)
    refine ⟨.enum read, after, ?_, by simp only [Declaration.erase, same]⟩
    rw [Declaration.print, toList_print_enumDecl, declaration, opened]
    simp only [Except.ok_bind, declRead]
  | model decl => exact modelDeclaration_print wellFormed offset
  | function decl =>
    have opened := opening_read (show Opening.function.word = "function" from rfl)
    obtain ⟨read, after, declRead, same⟩ := functionDecl_print comments wellFormed offset
      ('\n' :: rest) (offset + byteLength "function".toList)
    refine ⟨.function read, after, ?_, by simp only [Declaration.erase, same]⟩
    rw [Declaration.print, toList_print_functionDecl, declaration, opened]
    simp only [Except.ok_bind, declRead]
  | attr decl =>
    have opened := opening_read (show Opening.attr.word = "attribute" from rfl)
    obtain ⟨read, after, declRead, same⟩ := attributeDecl_print wellFormed ahead offset
      (offset + byteLength "attribute".toList)
    refine ⟨.attr read, after, ?_, by simp only [Declaration.erase, same]⟩
    rw [Declaration.print, toList_print_attributeDecl, declaration, opened]
    simp only [Except.ok_bind, declRead]

theorem print_eq_word (declared : Declaration) (rest : List Char) : ∃ word behind, IsName word ∧
    declared.print.toList ++ rest = word.toList ++ behind := by
  cases declared with
  | dataSource block =>
    exact ⟨_, _, isName_word .dataSource, toList_print_configBlock _ block rest⟩
  | plugin block => exact ⟨_, _, isName_word .plugin, toList_print_configBlock _ block rest⟩
  | enum decl => exact ⟨_, _, isName_word .enum, toList_print_enumDecl decl rest⟩
  | model decl =>
    rw [Declaration.print, toList_print_model]
    cases decl.isAbstract with
    | false => exact ⟨_, _, isName_word .model, rfl⟩
    | true => exact ⟨_, ' ' :: _, isName_word .abstract, rfl⟩
  | function decl => exact ⟨_, _, isName_word .function, toList_print_functionDecl decl rest⟩
  | attr decl => exact ⟨_, _, isName_word .attr, toList_print_attributeDecl decl rest⟩

theorem exists_declaration_cons (comments : Bool) (declared : Declaration) (rest : List Char) :
    Leads comments (declared.print.toList ++ rest) (declared.print.toList ++ rest) ∧
      ∃ first others, declared.print.toList ++ rest = first :: others ∧
        isIdentStart first = true := by
  obtain ⟨word, behind, isName, same⟩ := print_eq_word declared rest
  obtain ⟨first, others, chars, start⟩ := isName.exists_cons
  rw [same]
  refine ⟨Cursor.leads_name comments isName behind, first, others ++ behind, ?_, start⟩
  rw [chars, List.cons_append]

theorem documentAhead_print (declared : Declaration) (rest : List Char) :
    DocumentAhead comments (declared.print.toList ++ rest) := by
  obtain ⟨leads, start⟩ := exists_declaration_cons comments declared rest
  exact ⟨_, leads, .inr start⟩

theorem documentAhead_nil : DocumentAhead comments [] :=
  ⟨[], Cursor.leads_nil, .inl rfl⟩

theorem DocumentAhead.blanks {blanks : List Char} (ahead : DocumentAhead comments rest)
    (skipped : AllSkipped blanks) : DocumentAhead comments (blanks ++ rest) := by
  obtain ⟨next, leads, form⟩ := ahead
  exact ⟨next, leads.blanks skipped, form⟩

theorem exists_printAll_cons (first : Declaration) (others : List Declaration) :
    ∃ blanks, AllSkipped blanks ∧ (Declaration.printAll (first :: others)).toList =
      first.print.toList ++ (blanks ++ (Declaration.printAll others).toList) := by
  cases others with
  | nil => exact ⟨[], allSkipped_nil, (List.append_nil _).symm⟩
  | cons second behind =>
    refine ⟨['\n'], allSkipped_newline, ?_⟩
    rw [Declaration.printAll, String.toList_append, String.toList_append, List.append_assoc]
    · rfl
    · exact nofun

theorem documentAhead_printAll (declarations : List Declaration) :
    DocumentAhead comments (Declaration.printAll declarations).toList := by
  cases declarations with
  | nil => exact documentAhead_nil
  | cons first others =>
    obtain ⟨blanks, _, whole⟩ := exists_printAll_cons first others
    rw [whole]
    exact documentAhead_print first _

theorem length_le_printAll (declarations : List Declaration) :
    declarations.length ≤ (Declaration.printAll declarations).toList.length := by
  induction declarations with
  | nil => exact Nat.zero_le _
  | cons first others ih =>
    obtain ⟨blanks, _, whole⟩ := exists_printAll_cons first others
    obtain ⟨_, start, behind, chars, _⟩ := exists_declaration_cons true first []
    have nonempty := congrArg List.length chars
    rw [List.append_nil, List.length_cons] at nonempty
    rw [whole, List.length_cons, List.length_append, List.length_append]
    omega

theorem declarationsWith_print (comments : Bool) {declarations : List Declaration}
    (wellFormed : ∀ declared ∈ declarations, declared.WellFormed) :
    ∀ blanks offset fuel, AllSkipped blanks → declarations.length < fuel → ∃ read,
      declarationsWith comments fuel
        ⟨offset, blanks ++ (Declaration.printAll declarations).toList⟩ = .ok read ∧
        read.map Declaration.erase = declarations.map Declaration.erase := by
  induction declarations with
  | nil =>
    intro blanks offset fuel skip enough
    obtain ⟨fuel, rfl⟩ : ∃ less, fuel = less + 1 := ⟨fuel - 1, by simp at enough; omega⟩
    have ending : Leads comments [] [] := Cursor.leads_nil
    obtain ⟨after, skipped⟩ := ending.blanks skip offset
    have empty : (Declaration.printAll []).toList = [] := rfl
    refine ⟨[], ?_, rfl⟩
    simp only [declarationsWith, empty, skipped, List.isEmpty_nil, if_true]
  | cons first others ih =>
    intro blanks offset fuel skip enough
    obtain ⟨fuel, rfl⟩ : ∃ less, fuel = less + 1 := ⟨fuel - 1, by simp at enough; omega⟩
    obtain ⟨formed, othersFormed⟩ := List.forall_mem_cons.1 wellFormed
    obtain ⟨between, skippedBetween, whole⟩ := exists_printAll_cons first others
    have ahead : DocumentAhead comments (between ++ (Declaration.printAll others).toList) :=
      (documentAhead_printAll others).blanks skippedBetween
    obtain ⟨leads, start, behind, chars, _⟩ := exists_declaration_cons comments first
      (between ++ (Declaration.printAll others).toList)
    obtain ⟨begin, skipped⟩ := leads.blanks skip offset
    have nonempty : (first.print.toList ++
        (between ++ (Declaration.printAll others).toList)).isEmpty = false := by
      rw [chars]
      rfl
    obtain ⟨read, next, firstRead, same⟩ := declaration_print formed ahead begin
    obtain ⟨values, othersRead, sameOthers⟩ := ih othersFormed ('\n' :: between) next fuel
      (allSkipped_newline.append skippedBetween) (by simp at enough; omega)
    refine ⟨read :: values, ?_, by simp [same, sameOthers]⟩
    rw [List.cons_append] at othersRead
    simp only [declarationsWith, whole, skipped, nonempty, Bool.false_eq_true, if_false, firstRead,
      othersRead, Except.ok_bind]

end Reading

theorem Document.readWith_print {document : Document} (comments : Bool)
    (wellFormed : document.WellFormed) : ∃ read,
      Document.readWith comments document.print = .ok read ∧ read.erase = document.erase := by
  have bound := Reading.length_le_printAll document.declarations
  obtain ⟨declarations, declared, same⟩ :=
    Reading.declarationsWith_print comments wellFormed [] 0 (document.print.toList.length + 1)
      Reading.allSkipped_nil (Nat.lt_succ_of_le bound)
  refine ⟨⟨declarations⟩, ?_, by simp only [Document.erase, same]⟩
  exact Except.mapError_eq_ok.2 (Except.map_eq_ok.2 ⟨declarations, declared, rfl⟩)

/--
Printing a document that was read and reading the text again gives the same document, up to places.
-/
theorem Document.read_print {text : String} {document : Document}
    (read : Document.read text = .ok document) : ∃ again,
      Document.read document.print = .ok again ∧ again.erase = document.erase :=
  Document.readWith_print true (Document.wellFormed_of_readWith read)

theorem Document.read_print_compact : ∃ document again,
    Document.read "model A\x7bn Int? @a(-(1+2)*3,k:'x')@@b\x7d" = .ok document ∧
      document.print = "model A \x7b\n    n Int? @a(-(1 + 2) * 3, k: \"x\")\n\n    @@b\n\x7d\n" ∧
      Document.read document.print = .ok again ∧ again.erase = document.erase := by
  have printed : (Document.read "model A\x7bn Int? @a(-(1+2)*3,k:'x')@@b\x7d").toOption.map
      Document.print =
        some "model A \x7b\n    n Int? @a(-(1 + 2) * 3, k: \"x\")\n\n    @@b\n\x7d\n" := by
    decide +kernel
  cases read : Document.read "model A\x7bn Int? @a(-(1+2)*3,k:'x')@@b\x7d" with
  | error error =>
    rw [read] at printed
    cases printed
  | ok document =>
    rw [read] at printed
    obtain ⟨again, readAgain, same⟩ := Document.read_print read
    exact ⟨document, again, rfl, Option.some.inj printed, readAgain, same⟩

end Schemata
