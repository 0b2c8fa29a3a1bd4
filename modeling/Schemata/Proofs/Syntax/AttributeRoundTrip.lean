import Schemata.Proofs.Syntax.DocumentForm
import Schemata.Proofs.Syntax.ExprRoundTrip

set_option autoImplicit false

namespace Schemata.Reading

open Cursor (Leads)

variable {comments : Bool} {chars rest : List Char}

theorem ident_name {name : Ident} (isName : IsName name.name)
    (leads : Leads comments chars (name.name.toList ++ rest))
    (stop : rest.head?.any isIdentPart = false) (what : Expected) (offset : Nat) :
    ∃ read after, ident comments what ⟨offset, chars⟩ = .ok (read, ⟨after, rest⟩) ∧
      read.erase = name.erase := by
  obtain ⟨span, after, read⟩ := Cursor.ident?_name offset isName leads stop
  refine ⟨⟨name.name, span⟩, after, ?_, rfl⟩
  simp only [ident, read, orMiss]

structure TypeEnds (rest : List Char) : Prop where
  stop : rest.head?.any isIdentPart = false
  noList : rest.head? ≠ some '['
  noOption : rest.head? ≠ some '?'

theorem mark_print (text : String) {first : Char} (start : text.toList.head? = some first)
    (noMark : rest.head? ≠ some first) (present : Bool) (offset : Nat) : ∃ after,
      mark text ⟨offset, (if present then text else "").toList ++ rest⟩ =
        (present, ⟨after, rest⟩) := by
  cases present with
  | true =>
    refine ⟨offset + byteLength text.toList, ?_⟩
    rw [if_pos rfl, mark, Cursor.chars?_append]
  | false =>
    refine ⟨offset, ?_⟩
    -- A mark that is missing must not be found in what follows.
    have differ : ¬ text.toList <+: rest := by
      rintro ⟨others, rfl⟩
      apply noMark
      rw [List.head?_append, start, Option.some_or]
    rw [if_neg (by decide), mark]
    simp [Cursor.chars?_eq_none differ]

theorem typeName_word {name : String} (isName : IsName name) (supported : name ≠ "Unsupported")
    (stop : rest.head?.any isIdentPart = false) (offset : Nat) : ∃ span after,
      typeName comments ⟨offset, name.toList ++ rest⟩ =
        .ok (.ofIdent ⟨name, span⟩, ⟨after, rest⟩) := by
  refine ⟨⟨offset, offset + byteLength name.toList⟩, offset + byteLength name.toList, ?_⟩
  rw [typeName, Cursor.identifier?_name offset isName stop]
  simp only [orMiss, Except.ok_bind, supported, if_false]

theorem typeName_unsupported (text : String) (offset : Nat) : ∃ after,
    typeName comments ⟨offset, (TypeName.unsupported text).print.toList ++ rest⟩ =
      .ok (.unsupported text, ⟨after, rest⟩) := by
  have whole : (TypeName.unsupported text).print.toList ++ rest =
      "Unsupported".toList ++ '(' :: ((Quoted.quote text).toList ++ ')' :: rest) := by
    simp [TypeName.print]
  have isName : IsName "Unsupported" := .of_all rfl rfl
  have stop : ('(' :: ((Quoted.quote text).toList ++ ')' :: rest)).head?.any isIdentPart = false :=
    rfl
  have word := Cursor.identifier?_name offset isName stop
  have parenthesis : Leads comments ('(' :: ((Quoted.quote text).toList ++ ')' :: rest))
      ('(' :: ((Quoted.quote text).toList ++ ')' :: rest)) :=
    Cursor.leads_of_ne_slash (by decide) (by decide)
  obtain ⟨inside, opened⟩ := char_of_leads parenthesis .unsupportedStart
    (offset + byteLength "Unsupported".toList)
  obtain ⟨start, skipped⟩ := Cursor.leads_quote comments text (')' :: rest) inside
  obtain ⟨behind, quoted⟩ := Cursor.quoted?_quote text (')' :: rest) start
  obtain ⟨after, closed⟩ :=
    char_of_leads (leads_close comments (.inl rfl) rest) .closingParenthesis behind
  refine ⟨after, ?_⟩
  rw [whole, typeName]
  simp only [word, orMiss, Except.ok_bind, if_true, unsupported, opened, skipped, quoted, closed]

theorem typeName_print (comments : Bool) {name : TypeName} (wellFormed : name.WellFormed)
    (stop : rest.head?.any isIdentPart = false) (offset : Nat) : ∃ read after,
      typeName comments ⟨offset, name.print.toList ++ rest⟩ = .ok (read, ⟨after, rest⟩) ∧
        read.erase = name.erase := by
  -- A word becomes a built-in type by its name, and a declared type has no such name.
  cases name with
  | scalar kind =>
    have isName : IsName kind.name := by cases kind <;> exact .of_all rfl rfl
    have supported : kind.name ≠ "Unsupported" := by cases kind <;> decide
    obtain ⟨span, after, read⟩ := typeName_word isName supported stop offset
    refine ⟨_, after, read, ?_⟩
    simp only [TypeName.ofIdent, Scalar.ofName?_name]
  | builtin kind =>
    have isName : IsName kind.name := by cases kind <;> exact .of_all rfl rfl
    have supported : kind.name ≠ "Unsupported" := by cases kind <;> decide
    have noScalar : Scalar.ofName? kind.name = none := by cases kind <;> decide
    obtain ⟨span, after, read⟩ := typeName_word isName supported stop offset
    refine ⟨_, after, read, ?_⟩
    simp only [TypeName.ofIdent, noScalar, Builtin.ofName?_name]
  | unsupported text =>
    obtain ⟨after, read⟩ := typeName_unsupported text offset
    exact ⟨_, after, read, rfl⟩
  | named name =>
    obtain ⟨span, after, read⟩ :=
      typeName_word wellFormed.isName wellFormed.supported stop offset
    refine ⟨_, after, read, ?_⟩
    simp only [TypeName.ofIdent, wellFormed.noScalar, wellFormed.noBuiltin]
    rfl

theorem leads_typeName {name : TypeName} (wellFormed : name.WellFormed) (rest : List Char) :
    Leads comments (name.print.toList ++ rest) (name.print.toList ++ rest) := by
  cases name with
  | scalar kind => cases kind <;> exact Cursor.leads_of_ne_slash (by decide) (by decide)
  | builtin kind => cases kind <;> exact Cursor.leads_of_ne_slash (by decide) (by decide)
  | unsupported text =>
    rw [TypeName.print, String.toList_append, String.toList_append, List.append_assoc,
      List.append_assoc]
    exact Cursor.leads_of_ne_slash (by decide) (by decide)
  | named name => exact Cursor.leads_name comments wellFormed.isName rest

theorem leads_typeRef {type : TypeRef} (wellFormed : type.name.WellFormed) (rest : List Char) :
    Leads comments (type.print.toList ++ rest) (type.print.toList ++ rest) := by
  rw [TypeRef.print, String.toList_append, String.toList_append, List.append_assoc,
    List.append_assoc]
  exact leads_typeName wellFormed _

theorem typeRef_print {type : TypeRef} (wellFormed : type.name.WellFormed)
    (leads : Leads comments chars (type.print.toList ++ rest)) (ends : TypeEnds rest)
    (offset : Nat) : ∃ read after,
      typeRef comments ⟨offset, chars⟩ = .ok (read, ⟨after, rest⟩) ∧ read.erase = type.erase := by
  obtain ⟨name, isList, isOptional, span⟩ := type
  have formed : name.WellFormed := wellFormed
  have whole : (TypeRef.mk name isList isOptional span).print.toList ++ rest =
      name.print.toList ++ ((if isList then "[]" else "").toList ++
        ((if isOptional then "?" else "").toList ++ rest)) := by
    simp [TypeRef.print]
  rw [whole] at leads
  obtain ⟨start, skipped⟩ := leads offset
  have noList : ((if isOptional then "?" else "").toList ++ rest).head? ≠ some '[' := by
    cases isOptional with
    | true => simp
    | false => simpa using ends.noList
  have stop : ((if isList then "[]" else "").toList ++
      ((if isOptional then "?" else "").toList ++ rest)).head?.any isIdentPart = false := by
    cases isList with
    | true => rfl
    | false =>
      cases isOptional with
      | true => rfl
      | false => simpa using ends.stop
  obtain ⟨read, behind, named, same⟩ := typeName_print comments formed stop start
  obtain ⟨listed, listMark⟩ := mark_print "[]" rfl noList isList behind
  obtain ⟨after, optionMark⟩ := mark_print "?" rfl ends.noOption isOptional listed
  refine ⟨⟨read, isList, isOptional, ⟨start, after⟩⟩, after, ?_, ?_⟩
  · simp only [typeRef, skipped, named, listMark, optionMark, Except.ok_bind]
  · simp only [TypeRef.erase, same]

def argumentsText (values : List Argument) : List Char :=
  if values.isEmpty then []
  else '(' :: (commaSeparated (values.map Argument.print)).toList ++ [')']

theorem toList_print_attribute (applied : Attribute) :
    applied.print.toList = applied.name.name.toList ++ argumentsText applied.arguments := by
  rw [Attribute.print, argumentsText]
  split
  · rw [List.append_nil]
  · simp

theorem attributeAt_print {applied : Attribute} {signs word : String}
    (named : applied.name.name = signs ++ word) (isName : IsName word)
    (wellFormed : ∀ value ∈ applied.arguments, value.WellFormed) (ends : WordEnds comments rest)
    (start : Cursor) (offset : Nat) : ∃ read after,
      attributeAt comments signs start
        ⟨offset, word.toList ++ (argumentsText applied.arguments ++ rest)⟩ =
          .ok (read, ⟨after, rest⟩) ∧ read.erase = applied.erase := by
  obtain ⟨name, values, span⟩ := applied
  simp only at named wellFormed ⊢
  have sameName (nameSpan : Span) : (⟨signs ++ word, nameSpan⟩ : Ident).erase = name.erase := by
    simp only [Ident.erase, named]
  -- Without arguments there are no parentheses, and then none may follow the name.
  by_cases empty : values = []
  · subst empty
    have noArguments : argumentsText [] ++ rest = rest := rfl
    have read := Cursor.identifier?_name offset isName ends.stop
    obtain ⟨next, leads, noCall⟩ := ends.noCall
    obtain ⟨ahead, skipped⟩ := leads (offset + byteLength word.toList)
    refine ⟨⟨⟨signs ++ word, ⟨start.offset, offset + byteLength word.toList⟩⟩, [],
      ⟨start.offset, offset + byteLength word.toList⟩⟩, offset + byteLength word.toList, ?_, ?_⟩
    · rw [noArguments, attributeAt]
      simp only [read, orMiss, Except.ok_bind, skipped, Cursor.char?_of_head noCall]
    · simp only [Attribute.erase, sameName]
  · have noNil : values.isEmpty = false := List.isEmpty_eq_false_iff.2 empty
    have text : argumentsText values ++ rest =
        '(' :: ((commaSeparated (values.map Argument.print)).toList ++ ')' :: rest) := by
      simp [argumentsText, empty]
    have stop : (argumentsText values ++ rest).head?.any isIdentPart = false := by
      rw [text]
      rfl
    have read := Cursor.identifier?_name offset isName stop
    rw [text] at read ⊢
    have solid : Leads comments
        ('(' :: ((commaSeparated (values.map Argument.print)).toList ++ ')' :: rest))
        ('(' :: ((commaSeparated (values.map Argument.print)).toList ++ ')' :: rest)) :=
      Cursor.leads_of_ne_slash (by decide) (by decide)
    obtain ⟨ahead, skipped⟩ := solid (offset + byteLength word.toList)
    obtain ⟨others, after, argumentsRead, same⟩ :=
      arguments_print comments wellFormed rest (ahead + '('.utf8Size)
    refine ⟨⟨⟨signs ++ word, ⟨start.offset, offset + byteLength word.toList⟩⟩, others,
      ⟨start.offset, after⟩⟩, after, ?_, ?_⟩
    · rw [attributeAt]
      simp only [read, orMiss, Except.ok_bind, skipped, Cursor.char?_cons_self, argumentsRead]
    · simp only [Attribute.erase, sameName, same]

structure FindsSigns (signs : String) (sign? : Cursor → Option Cursor) : Prop where
  isSign : signs.toList.head? = some '@'
  finds : ∀ offset word rest, IsName word → ∃ after,
    sign? ⟨offset, signs.toList ++ (word.toList ++ rest)⟩ = some ⟨after, word.toList ++ rest⟩

theorem finds_fieldSign : FindsSigns "@" fieldSign? where
  isSign := rfl
  finds := by
    intro offset word rest isName
    obtain ⟨first, others, chars, start⟩ := isName.exists_cons
    have noSign : first ≠ '@' := ne_of_test start (by decide)
    have sign : "@".toList = ['@'] := rfl
    refine ⟨offset + '@'.utf8Size, ?_⟩
    rw [chars, sign]
    simp [fieldSign?, Cursor.char?_of_ne noSign]

theorem finds_chars {signs : String} (isSign : signs.toList.head? = some '@') :
    FindsSigns signs (·.chars? signs.toList) where
  isSign := isSign
  finds offset _ _ _ := ⟨offset + byteLength signs.toList, Cursor.chars?_append _ _ _⟩

theorem leads_signs {signs : String} (isSign : signs.toList.head? = some '@') (rest : List Char) :
    Leads comments (signs.toList ++ rest) (signs.toList ++ rest) := by
  obtain ⟨others, signs⟩ := List.head?_eq_some_iff.1 isSign
  rw [signs]
  exact Cursor.leads_of_ne_slash (by decide) (by decide)

theorem toList_printTrailing_cons (first : Attribute) (others : List Attribute) :
    (Attribute.printTrailing (first :: others)).toList =
      ' ' :: (first.print.toList ++ (Attribute.printTrailing others).toList) := by
  simp [Attribute.printTrailing]

theorem exists_printTrailing_cons {signs : String} {first : Attribute}
    (formed : first.WellFormed signs) (others : List Attribute) (rest : List Char) :
    ∃ word, IsName word ∧ first.name.name = signs ++ word ∧
      (Attribute.printTrailing (first :: others)).toList ++ rest =
        ' ' :: (signs.toList ++ (word.toList ++ (argumentsText first.arguments ++
          ((Attribute.printTrailing others).toList ++ rest)))) := by
  obtain ⟨word, isName, named⟩ := formed.name
  refine ⟨word, isName, named, ?_⟩
  simp [toList_printTrailing_cons, toList_print_attribute, named]

theorem wordEnds_printTrailing {signs : String} {attributes : List Attribute}
    (isSign : signs.toList.head? = some '@')
    (wellFormed : ∀ applied ∈ attributes, applied.WellFormed signs) (ends : WordEnds comments rest) :
    WordEnds comments ((Attribute.printTrailing attributes).toList ++ rest) := by
  cases attributes with
  | nil => exact ends
  | cons first others =>
    obtain ⟨word, _, _, whole⟩ :=
      exists_printTrailing_cons (wellFormed first List.mem_cons_self) others rest
    rw [whole]
    refine ⟨rfl, nofun, _, (leads_signs isSign _).blank rfl, ?_⟩
    rw [List.head?_append, isSign, Option.some_or]
    decide

theorem attributesWith_print {signs : String} {sign? : Cursor → Option Cursor}
    (finder : FindsSigns signs sign?) {attributes : List Attribute}
    (wellFormed : ∀ applied ∈ attributes, applied.WellFormed signs) (ends : WordEnds comments rest)
    (stops : ∃ next, Leads comments rest next ∧ ∀ offset, sign? ⟨offset, next⟩ = none) :
    ∀ offset fuel, attributes.length ≤ fuel → ∃ read after,
      attributesWith comments signs sign? fuel
        ⟨offset, (Attribute.printTrailing attributes).toList ++ rest⟩ = .ok (read, ⟨after, rest⟩) ∧
          read.map Attribute.erase = attributes.map Attribute.erase := by
  induction attributes with
  | nil =>
    intro offset fuel _
    refine ⟨[], offset, ?_, rfl⟩
    cases fuel with
    | zero => rfl
    | succ fuel =>
      obtain ⟨next, leads, noSign⟩ := stops
      obtain ⟨start, skipped⟩ := leads offset
      have none : (Attribute.printTrailing []).toList ++ rest = rest := rfl
      simp only [attributesWith, none, skipped, noSign]
  | cons first others ih =>
    intro offset fuel enough
    obtain ⟨fuel, rfl⟩ : ∃ less, fuel = less + 1 := ⟨fuel - 1, by simp at enough; omega⟩
    obtain ⟨formed, othersFormed⟩ := List.forall_mem_cons.1 wellFormed
    obtain ⟨word, isName, named, whole⟩ := exists_printTrailing_cons formed others rest
    -- An attribute ends at the sign of the next one, or where the whole list ends.
    have otherEnds := wordEnds_printTrailing finder.isSign othersFormed ends
    have solid (behind : List Char) : Leads comments (' ' :: (signs.toList ++ behind))
        (signs.toList ++ behind) := (leads_signs finder.isSign behind).blank rfl
    generalize text : word.toList ++ (argumentsText first.arguments ++
      ((Attribute.printTrailing others).toList ++ rest)) = behind at whole
    obtain ⟨start, skipped⟩ := solid behind offset
    obtain ⟨sign, found⟩ := finder.finds start word
      (argumentsText first.arguments ++ ((Attribute.printTrailing others).toList ++ rest)) isName
    obtain ⟨read, next, firstRead, same⟩ := attributeAt_print named isName formed.arguments
      otherEnds ⟨start, signs.toList ++ behind⟩ sign
    rw [text] at found firstRead
    obtain ⟨values, after, othersRead, sameOthers⟩ :=
      ih othersFormed next fuel (by simp at enough; omega)
    refine ⟨read :: values, after, ?_, by simp [same, sameOthers]⟩
    simp only [attributesWith, whole, skipped, found, firstRead, othersRead, Except.ok_bind]

theorem typeEnds_cons {ending : Char} (among : ending = ',' ∨ ending = ')') (others : List Char) :
    TypeEnds (ending :: others) := by
  rcases among with rfl | rfl <;> exact ⟨rfl, by simp, by simp⟩

theorem typed_print {name : Ident} {type : TypeRef} (isName : IsName name.name)
    (wellFormed : type.name.WellFormed) (ends : TypeEnds rest)
    (leads : Leads comments chars (name.name.toList ++ ':' :: ' ' :: (type.print.toList ++ rest)))
    (offset : Nat) : ∃ read next behind readType after,
      ident comments .paramName ⟨offset, chars⟩ = .ok (read, next) ∧
        char comments ':' .paramColon next = .ok behind ∧
        typeRef comments behind = .ok (readType, ⟨after, rest⟩) ∧
        read.erase = name.erase ∧ readType.erase = type.erase := by
  obtain ⟨read, next, named, same⟩ := ident_name isName leads rfl .paramName offset
  have colon : Leads comments (':' :: ' ' :: (type.print.toList ++ rest))
      (':' :: ' ' :: (type.print.toList ++ rest)) :=
    Cursor.leads_of_ne_slash (by decide) (by decide)
  obtain ⟨behind, separated⟩ := char_of_leads colon .paramColon next
  have solid : Leads comments (' ' :: (type.print.toList ++ rest)) (type.print.toList ++ rest) :=
    (leads_typeRef wellFormed rest).blank rfl
  obtain ⟨readType, after, typed, sameType⟩ := typeRef_print wellFormed solid ends behind
  exact ⟨read, _, _, readType, after, named, separated, typed, same, sameType⟩

theorem IsName.isSolid {name : String} (isName : IsName name) (rest : List Char) :
    IsSolid ')' (name.toList ++ rest) :=
  ((Starts.of_isName isName).append rest).isSolid (.inl rfl)

theorem readsItem_functionParam {param : FunctionParam} (wellFormed : param.WellFormed) :
    ReadsItem comments ')' (functionParam comments) FunctionParam.erase param.print.toList
      param where
  solid := by
    rw [FunctionParam.print, String.toList_append, String.toList_append, List.append_assoc]
    exact IsName.isSolid wellFormed.name _
  reads := by
    intro chars ending others offset leads among
    have whole : param.print.toList ++ ending :: others = param.name.name.toList ++
        ':' :: ' ' :: (param.type.print.toList ++ ending :: others) := by
      simp [FunctionParam.print]
    rw [whole] at leads
    obtain ⟨name, _, _, type, after, named, separated, typed, sameName, sameType⟩ :=
      typed_print wellFormed.name wellFormed.type (typeEnds_cons among others) leads offset
    refine ⟨⟨name, type⟩, after, ?_, ?_⟩
    · simp only [functionParam, named, separated, typed, Except.ok_bind]
    · simp only [FunctionParam.erase, sameName, sameType]

theorem isBlank_of_isIdentPart {char : Char} (part : isIdentPart char = true) :
    isBlank char = false := by
  -- All parts of names lie between the digit 0 and the letter z, where no white space is.
  have within : 48 ≤ char.toNat ∧ char.toNat ≤ 122 := by
    unfold isIdentPart Char.isAlphanum Char.isAlpha Char.isUpper Char.isLower Char.isDigit at part
    simp only [Bool.or_eq_true, Bool.and_eq_true, decide_eq_true_eq, beq_iff_eq,
      UInt32.le_iff_toNat_le] at part
    rcases part with ((upper | lower) | digit) | rfl
    · exact ⟨Nat.le_trans (by decide) upper.1, Nat.le_trans upper.2 (by decide)⟩
    · exact ⟨Nat.le_trans (by decide) lower.1, Nat.le_trans lower.2 (by decide)⟩
    · exact ⟨Nat.le_trans (by decide) digit.1, Nat.le_trans digit.2 (by decide)⟩
    · decide
  simp only [isBlank, blankRanges, List.any_cons, List.any_nil, Bool.or_false,
    Bool.or_eq_false_iff, Bool.and_eq_false_imp, decide_eq_true_eq, decide_eq_false_iff_not,
    Nat.not_le]
  omega

theorem positionalMark_name {name : String} (isName : IsName name) (offset : Nat) :
    positionalMark ⟨offset, name.toList ++ ':' :: rest⟩ =
      (false, ⟨offset, name.toList ++ ':' :: rest⟩) := by
  obtain ⟨first, others, chars, start⟩ := isName.exists_cons
  have parts := isName.parts
  rw [chars] at parts ⊢
  unfold positionalMark
  -- A name may start with the mark itself, but then no blank follows it.
  by_cases underscore : first = '_'
  · subst underscore
    have noBlank : (others ++ ':' :: rest).head?.any isBlank = false := by
      cases others with
      | nil => rfl
      | cons second behind =>
        have part := parts second (by simp)
        simpa using isBlank_of_isIdentPart part
    simp only [List.cons_append, Cursor.char?_cons_self, noBlank, Bool.false_eq_true, if_false]
  · rw [List.cons_append, Cursor.char?_of_ne underscore]

theorem readsItem_attributeParam {param : AttributeParam} (wellFormed : param.WellFormed) :
    ReadsItem comments ')' (attributeParam comments) AttributeParam.erase param.print.toList
      param := by
  obtain ⟨name, type, isPositional⟩ := param
  obtain ⟨isName, formed⟩ := wellFormed
  have whole (others : List Char) :
      (AttributeParam.print ⟨name, type, isPositional⟩).toList ++ others =
        (if isPositional then "_ " else "").toList ++
          (name.name.toList ++ ':' :: ' ' :: (type.print.toList ++ others)) := by
    simp [AttributeParam.print]
  have named (others : List Char) : Leads comments
      (name.name.toList ++ ':' :: ' ' :: (type.print.toList ++ others))
      (name.name.toList ++ ':' :: ' ' :: (type.print.toList ++ others)) :=
    Cursor.leads_name comments isName _
  constructor
  case solid =>
    have empty := whole []
    rw [List.append_nil] at empty
    rw [empty]
    cases isPositional with
    | true => exact ⟨'_', _, rfl, by decide, by decide, by decide⟩
    | false => exact IsName.isSolid isName _
  case reads =>
    intro chars ending others offset leads among
    rw [whole] at leads
    obtain ⟨start, skipped⟩ := leads offset
    -- The mark leaves a blank before the name, or the name itself.
    obtain ⟨marked, text, mark, aheadName⟩ : ∃ marked text,
        positionalMark ⟨start, (if isPositional then "_ " else "").toList ++
          (name.name.toList ++ ':' :: ' ' :: (type.print.toList ++ ending :: others))⟩ =
            (isPositional, ⟨marked, text⟩) ∧
          Leads comments text
            (name.name.toList ++ ':' :: ' ' :: (type.print.toList ++ ending :: others)) := by
      cases isPositional with
      | true => exact ⟨_, ' ' :: _, rfl, (named _).blank rfl⟩
      | false => exact ⟨_, _, positionalMark_name isName start, named _⟩
    obtain ⟨readName, _, _, readType, after, nameRead, separated, typed, sameName, sameType⟩ :=
      typed_print isName formed (typeEnds_cons among others) aheadName marked
    refine ⟨⟨readName, readType, isPositional⟩, after, ?_, ?_⟩
    · simp only [attributeParam, skipped, mark, nameRead, separated, typed, Except.ok_bind]
    · simp only [AttributeParam.erase, sameName, sameType]

end Schemata.Reading
