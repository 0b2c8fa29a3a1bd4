import Schemata.Proofs.Syntax.Items
import Schemata.Proofs.Syntax.Levels
import Schemata.Proofs.Syntax.WellFormed

set_option autoImplicit false

namespace Schemata.Reading

open Cursor (Leads)

variable {comments : Bool} {text rest : List Char} {expr : Expr}

def PrimaryReads (comments : Bool) (text : List Char) (expr : Expr) : Prop :=
  ∀ rest offset fuel, WordEnds comments rest → 16 * text.length ≤ fuel + 10 → ∃ value after,
    primaryWith comments (fuel + 1) ⟨offset, text ++ rest⟩ = .ok (value, ⟨after, rest⟩) ∧
      value.erase = expr.erase

theorem PrimaryReads.suffixes (reads : PrimaryReads comments text expr)
    (nonempty : 0 < text.length) : Suffixes comments text expr := by
  intro rest offset start fuel ends enough
  obtain ⟨fuel, rfl⟩ : ∃ less, fuel = less + 1 := ⟨fuel - 1, by omega⟩
  obtain ⟨value, after, read, same⟩ := reads rest offset fuel ends (by omega)
  exact ⟨value, after, fuel + 1, by omega, by rw [read]; rfl, same⟩

theorem isDigit_of_isIdentStart {char : Char} (start : isIdentStart char = true) :
    char.isDigit = false := by
  cases digit : char.isDigit with
  | false => rfl
  | true =>
    simp only [Char.isDigit, Bool.and_eq_true, decide_eq_true_eq, UInt32.le_iff_toNat_le] at digit
    unfold isIdentStart Char.isAlpha Char.isUpper Char.isLower at start
    simp only [Bool.or_eq_true, Bool.and_eq_true, decide_eq_true_eq, beq_iff_eq,
      UInt32.le_iff_toNat_le] at start
    rcases start with (upper | lower) | rfl
    · exact absurd (Nat.le_trans upper.1 digit.2) (by decide)
    · exact absurd (Nat.le_trans lower.1 digit.2) (by decide)
    · exact absurd digit.2 (by decide)

theorem tests_of_isName {name : String} (isName : IsName name) (rest : List Char) (offset : Nat) :
    (⟨offset, name.toList ++ rest⟩ : Cursor).char? '(' = none ∧
      (⟨offset, name.toList ++ rest⟩ : Cursor).char? '[' = none ∧
      (⟨offset, name.toList ++ rest⟩ : Cursor).startsQuoted = false ∧
      (name.toList ++ rest).head?.any Char.isDigit = false := by
  obtain ⟨first, others, chars, start⟩ := isName.exists_cons
  rw [chars, List.cons_append]
  refine ⟨Cursor.char?_of_ne (ne_of_test start (by decide)),
    Cursor.char?_of_ne (ne_of_test start (by decide)), ?_, ?_⟩
  · have noQuote : first ≠ '"' := ne_of_test start (by decide)
    have noApostrophe : first ≠ '\'' := ne_of_test start (by decide)
    simp [Cursor.startsQuoted, noQuote, noApostrophe]
  · simpa using isDigit_of_isIdentStart start

section

variable {name : String}

theorem primaryWith_reserved {word : Span → Expr} (isName : IsName name)
    (reserved : ∀ span, reserved? name span = some (word span))
    (stop : rest.head?.any isIdentPart = false) (offset fuel : Nat) : ∃ span after,
      primaryWith comments (fuel + 1) ⟨offset, name.toList ++ rest⟩ =
        .ok (word span, ⟨after, rest⟩) := by
  obtain ⟨start, skipped⟩ := Cursor.leads_name comments isName rest offset
  obtain ⟨noParenthesis, noBracket, noQuote, noDigit⟩ := tests_of_isName isName rest start
  have read := Cursor.identifier?_name start isName stop
  refine ⟨⟨start, start + byteLength name.toList⟩, start + byteLength name.toList, ?_⟩
  rw [primaryWith]
  simp only [skipped, noParenthesis, noBracket, noQuote, noDigit, read, reserved,
    Bool.false_eq_true, if_false]

theorem primaryWith_reference (isPlain : IsPlainName name) (ends : WordEnds comments rest)
    (offset fuel : Nat) : ∃ span after,
      primaryWith comments (fuel + 1) ⟨offset, name.toList ++ rest⟩ =
        .ok (.reference ⟨name, span⟩ span, ⟨after, rest⟩) := by
  obtain ⟨start, skipped⟩ := Cursor.leads_name comments isPlain.isName rest offset
  obtain ⟨noParenthesis, noBracket, noQuote, noDigit⟩ := tests_of_isName isPlain.isName rest start
  have read := Cursor.identifier?_name start isPlain.isName ends.stop
  obtain ⟨next, leads, noCall⟩ := ends.noCall
  obtain ⟨ahead, skippedNext⟩ := leads (start + byteLength name.toList)
  refine ⟨⟨start, start + byteLength name.toList⟩, start + byteLength name.toList, ?_⟩
  rw [primaryWith]
  simp only [skipped, noParenthesis, noBracket, noQuote, noDigit, read,
    isPlain.reserved?_eq_none, skippedNext, Cursor.char?_of_head noCall, Bool.false_eq_true,
    if_false]

theorem primaryWith_call (comments : Bool) (isPlain : IsPlainName name) (rest : List Char)
    (offset fuel : Nat) : ∃ span inside, ∀ arguments close,
      items comments ')' .commaOrParenthesis (argumentWith comments fuel) ⟨inside, rest⟩ =
        .ok (arguments, close) →
      primaryWith comments (fuel + 1) ⟨offset, name.toList ++ '(' :: rest⟩ =
        .ok (.call ⟨name, span⟩ arguments ⟨span.start, close.offset⟩, close) := by
  obtain ⟨start, skipped⟩ := Cursor.leads_name comments isPlain.isName ('(' :: rest) offset
  obtain ⟨noParenthesis, noBracket, noQuote, noDigit⟩ :=
    tests_of_isName isPlain.isName ('(' :: rest) start
  have stop : ('(' :: rest).head?.any isIdentPart = false := rfl
  have read := Cursor.identifier?_name start isPlain.isName stop
  have solid : Leads comments ('(' :: rest) ('(' :: rest) :=
    Cursor.leads_of_ne_slash (by decide) (by decide)
  obtain ⟨ahead, skippedNext⟩ := solid (start + byteLength name.toList)
  refine ⟨⟨start, start + byteLength name.toList⟩, ahead + '('.utf8Size, ?_⟩
  -- The place of the arguments is known before they are read.
  intro arguments close argumentsRead
  rw [primaryWith]
  simp only [skipped, noParenthesis, noBracket, noQuote, noDigit, read,
    isPlain.reserved?_eq_none, skippedNext, Cursor.char?_cons_self, argumentsRead,
    Except.ok_bind, Bool.false_eq_true, if_false]

end

theorem primaryReads_string (text : String) (span : Span) :
    PrimaryReads comments (Quoted.quote text).toList (.literal (.string text) span) := by
  intro rest offset fuel _ _
  have chars : (Quoted.quote text).toList ++ rest =
      '"' :: (text.toList.flatMap Quoted.escape ++ ['"'] ++ rest) := by
    rw [Quoted.quote, String.toList_ofList, Quoted.encode, List.cons_append, List.cons_append]
  obtain ⟨start, skipped⟩ := Cursor.leads_quote comments text rest offset
  obtain ⟨after, read⟩ := Cursor.quoted?_quote text rest start
  refine ⟨.literal (.string text) ⟨start, after⟩, after, ?_, rfl⟩
  have noParenthesis : (⟨start, (Quoted.quote text).toList ++ rest⟩ : Cursor).char? '(' = none := by
    rw [chars]
    exact Cursor.char?_of_ne (by decide)
  have noBracket : (⟨start, (Quoted.quote text).toList ++ rest⟩ : Cursor).char? '[' = none := by
    rw [chars]
    exact Cursor.char?_of_ne (by decide)
  have startsQuoted : (⟨start, (Quoted.quote text).toList ++ rest⟩ : Cursor).startsQuoted =
      true := by
    rw [chars]
    rfl
  rw [primaryWith]
  simp only [skipped, noParenthesis, noBracket, startsQuoted, quoted, read, Except.ok_bind, if_true]

theorem primaryReads_number {text : String} (isNumber : IsNumber text) (span : Span) :
    PrimaryReads comments text.toList (.literal (.number text) span) := by
  intro rest offset fuel ends _
  obtain ⟨first, others, chars, digit⟩ := isNumber.exists_cons
  have noParenthesis : first ≠ '(' := ne_of_test digit (by decide)
  have noBracket : first ≠ '[' := ne_of_test digit (by decide)
  have noQuote : first ≠ '"' := ne_of_test digit (by decide)
  have noApostrophe : first ≠ '\'' := ne_of_test digit (by decide)
  have solid : Leads comments (text.toList ++ rest) (text.toList ++ rest) := by
    rw [chars]
    exact Cursor.leads_of_ne_slash (Cursor.isSkipped_of_test digit rfl)
      (ne_of_test digit (by decide))
  obtain ⟨start, skipped⟩ := solid offset
  obtain ⟨after, read⟩ := Cursor.number_text start isNumber ends.stop ends.noFraction
  refine ⟨.literal (.number text) ⟨start, after⟩, after, ?_, rfl⟩
  rw [primaryWith]
  simp only [skipped]
  rw [chars, List.cons_append] at read ⊢
  simp only [Cursor.char?_of_ne noParenthesis, Cursor.char?_of_ne noBracket, Cursor.startsQuoted,
    List.head?_cons, Option.any_some, digit, read, beq_eq_false_iff_ne.2 noQuote,
    beq_eq_false_iff_ne.2 noApostrophe, Bool.or_false, Bool.false_eq_true, if_false, if_true]

theorem primaryReads_reserved {name : String} {word : Span → Expr} (isName : IsName name)
    (reserved : ∀ span, reserved? name span = some (word span))
    (same : ∀ span, (word span).erase = expr.erase) : PrimaryReads comments name.toList expr := by
  intro rest offset fuel ends _
  obtain ⟨span, after, read⟩ := primaryWith_reserved isName reserved ends.stop offset fuel
  exact ⟨word span, after, read, same span⟩

theorem primaryReads_reference {name : Ident} (isPlain : IsPlainName name.name) (span : Span) :
    PrimaryReads comments name.name.toList (.reference name span) := by
  intro rest offset fuel ends _
  obtain ⟨span, after, read⟩ := primaryWith_reference isPlain ends offset fuel
  exact ⟨_, after, read, rfl⟩

theorem primaryReads_literal {value : Literal} (wellFormed : value.WellFormed) (span : Span) :
    PrimaryReads comments value.print.toList (.literal value span) := by
  cases value with
  | string text => exact primaryReads_string text span
  | number text => exact primaryReads_number wellFormed span
  | boolean value =>
    cases value with
    | true => exact primaryReads_reserved (.of_all rfl rfl) (fun _ => rfl) fun _ => rfl
    | false => exact primaryReads_reserved (.of_all rfl rfl) (fun _ => rfl) fun _ => rfl
  | null => exact primaryReads_reserved (.of_all rfl rfl) (fun _ => rfl) fun _ => rfl

theorem primaryReads_this (span : Span) :
    PrimaryReads comments "this".toList (.this span) :=
  primaryReads_reserved (.of_all rfl rfl) (fun _ => rfl) fun _ => rfl

theorem expressionWith_of_readsAt (reads : ReadsAt comments 0 text expr)
    (nonempty : 0 < text.length) {chars : List Char} {fuel : Nat}
    (leads : Leads comments chars (text ++ rest)) (ends : Ends comments 1 rest)
    (enough : 16 * text.length ≤ fuel) (offset : Nat) : ∃ value after,
      expressionWith comments fuel ⟨offset, chars⟩ = .ok (value, ⟨after, rest⟩) ∧
        value.erase = expr.erase := by
  obtain ⟨fuel, rfl⟩ : ∃ less, fuel = less + 1 := ⟨fuel - 1, by omega⟩
  rw [expressionWith]
  exact reads chars rest offset fuel leads ends (by omega)

theorem ReadsAt.parenthesized (reads : ReadsAt comments 0 text expr)
    (starts : Starts false text) : PrimaryReads comments ('(' :: text ++ [')']) expr := by
  intro rest offset fuel _ enough
  have chars : '(' :: text ++ [')'] ++ rest = '(' :: (text ++ ')' :: rest) := by simp
  have solid : Leads comments ('(' :: (text ++ ')' :: rest)) ('(' :: (text ++ ')' :: rest)) :=
    Cursor.leads_of_ne_slash (by decide) (by decide)
  obtain ⟨start, skipped⟩ := solid offset
  have ends : Ends comments 1 (')' :: rest) := ends_cons (by decide) (by decide) (by decide)
  have fits : 16 * text.length ≤ fuel := by
    simp only [List.length_cons, List.length_append, List.length_nil] at enough
    omega
  obtain ⟨value, inside, read, same⟩ := expressionWith_of_readsAt reads starts.length_pos
    (starts.append _).leads ends fits (start + '('.utf8Size)
  obtain ⟨after, closed⟩ :=
    char_of_leads (leads_close comments (.inl rfl) rest) .closingParenthesis inside
  refine ⟨value.withSpan ⟨start, after⟩, after, ?_, ?_⟩
  · rw [primaryWith, chars]
    simp only [skipped, Cursor.char?_cons_self, read, closed, Except.ok_bind]
  · rw [← same]
    cases value <;> rfl

theorem Starts.isSolid {isOperand : Bool} {close : Char} (starts : Starts isOperand text)
    (closing : close = ')' ∨ close = ']') : IsSolid close text := by
  obtain ⟨first, others, rfl, startsExpr, _⟩ := starts
  refine ⟨first, others, rfl, Cursor.isSkipped_of_test startsExpr rfl,
    ne_of_test startsExpr (by decide), ?_⟩
  rcases closing with rfl | rfl <;> exact ne_of_test startsExpr (by decide)

theorem ReadsAt.readsItem (reads : ReadsAt comments 0 text expr) (starts : Starts false text)
    {close : Char} (closing : close = ')' ∨ close = ']') {fuel : Nat}
    (enough : 16 * text.length ≤ fuel) :
    ReadsItem comments close (expressionWith comments fuel) Expr.erase text expr where
  solid := starts.isSolid closing
  reads := by
    intro chars ending others offset leads among
    refine expressionWith_of_readsAt reads starts.length_pos leads ?_ enough offset
    have ends : ending = ',' ∨ ending = ')' ∨ ending = ']' := by
      rcases among with comma | close
      · exact .inl comma
      · exact .inr (close ▸ closing)
    rcases ends with rfl | rfl | rfl <;> exact ends_cons (by decide) (by decide) (by decide)

theorem primaryReads_list {values : List Expr} (span : Span)
    (each : ∀ value ∈ values, ReadsAt comments 0 (value.printAt 0).toList value ∧
      Starts false (value.printAt 0).toList) :
    PrimaryReads comments
      ('[' :: (commaSeparated (values.map (Expr.printAt 0))).toList ++ [']'])
      (.list values span) := by
  intro rest offset fuel _ enough
  have chars : '[' :: (commaSeparated (values.map (Expr.printAt 0))).toList ++ [']'] ++ rest =
      '[' :: ((commaSeparated (values.map (Expr.printAt 0))).toList ++ ']' :: rest) := by simp
  obtain ⟨start, skipped⟩ : ∃ start, Cursor.skip comments ⟨offset, '[' ::
      ((commaSeparated (values.map (Expr.printAt 0))).toList ++ ']' :: rest)⟩ = ⟨start, '[' ::
      ((commaSeparated (values.map (Expr.printAt 0))).toList ++ ']' :: rest)⟩ :=
    Cursor.leads_of_ne_slash (by decide) (by decide) offset
  -- Each item is a part of the text, so that the fuel for the text is enough for the item.
  have items : ∀ value ∈ values, ReadsItem comments ']' (expressionWith comments fuel) Expr.erase
      (value.printAt 0).toList value := by
    intro value found
    obtain ⟨reads, starts⟩ := each value found
    apply reads.readsItem starts (.inr rfl)
    have part := length_le_commaSeparated_of_mem (List.mem_map_of_mem (f := Expr.printAt 0) found)
    simp only [List.length_cons, List.length_append, List.length_nil] at enough
    omega
  obtain ⟨read, after, itemsRead, same⟩ :=
    items_commaSeparated (.inr rfl) items .commaOrBracket rest (start + '['.utf8Size)
  refine ⟨.list read ⟨start, after⟩, after, ?_, ?_⟩
  · rw [primaryWith, chars]
    simp only [skipped, Cursor.char?_of_ne (show '[' ≠ '(' by decide), Cursor.char?_cons_self,
      itemsRead, Except.ok_bind]
  · simp only [Expr.erase, Expr.eraseAll_eq_map, same]

theorem primaryReads_call {function : Ident} {arguments : List Argument}
    (isPlain : IsPlainName function.name) (span : Span)
    (each : ∀ argument ∈ arguments, ∀ fuel, 16 * argument.print.toList.length < fuel →
      ReadsItem comments ')' (argumentWith comments fuel) Argument.erase argument.print.toList
        argument) :
    PrimaryReads comments
      (function.name.toList ++
        '(' :: (commaSeparated (arguments.map Argument.print)).toList ++ [')'])
      (.call function arguments span) := by
  intro rest offset fuel _ enough
  have chars : function.name.toList ++
      '(' :: (commaSeparated (arguments.map Argument.print)).toList ++ [')'] ++ rest =
      function.name.toList ++
        '(' :: ((commaSeparated (arguments.map Argument.print)).toList ++ ')' :: rest) := by simp
  obtain ⟨span, inside, called⟩ := primaryWith_call comments isPlain
    ((commaSeparated (arguments.map Argument.print)).toList ++ ')' :: rest) offset fuel
  have items : ∀ argument ∈ arguments, ReadsItem comments ')' (argumentWith comments fuel)
      Argument.erase argument.print.toList argument := by
    intro argument found
    apply each argument found
    have part := length_le_commaSeparated_of_mem (List.mem_map_of_mem (f := Argument.print) found)
    simp only [List.length_cons, List.length_append, List.length_nil] at enough
    omega
  obtain ⟨read, after, itemsRead, same⟩ :=
    items_commaSeparated (.inl rfl) items .commaOrParenthesis rest inside
  refine ⟨.call ⟨function.name, span⟩ read ⟨span.start, after⟩, after, ?_, ?_⟩
  · rw [chars]
    exact called _ _ itemsRead
  · simp only [Expr.erase, Argument.eraseAll_eq_map, same]
    rfl

theorem Suffixes.access {member : Ident} (object : Suffixes comments text expr)
    (isName : IsName member.name) (span : Span) :
    Suffixes comments (text ++ '.' :: member.name.toList) (.access expr member span) := by
  intro rest offset start fuel ends enough
  simp only [List.length_append, List.length_cons] at enough ⊢
  obtain ⟨first, others, chars, isStart⟩ := isName.exists_cons
  have point : Leads comments ('.' :: (member.name.toList ++ rest))
      ('.' :: (member.name.toList ++ rest)) := Cursor.leads_of_ne_slash (by decide) (by decide)
  -- A number may stand before the point, but no digit follows it.
  have objectEnds : WordEnds comments ('.' :: (member.name.toList ++ rest)) := by
    refine ⟨rfl, ?_, _, point, by simp⟩
    intro digits same
    cases same
    rw [chars]
    simpa using isDigit_of_isIdentStart isStart
  obtain ⟨value, after, left, spare, read, same⟩ :=
    object _ offset start fuel objectEnds (by omega)
  obtain ⟨left, rfl⟩ : ∃ less, left = less + 1 := ⟨left - 1, by omega⟩
  obtain ⟨behind, skipped⟩ := point after
  obtain ⟨nameSpan, last, named⟩ := Cursor.ident?_name (behind + '.'.utf8Size) isName
    (Cursor.leads_name comments isName rest) ends.stop
  refine ⟨.access value ⟨member.name, nameSpan⟩ ⟨start, last⟩, last, left, by omega, ?_, ?_⟩
  · rw [List.append_assoc, List.cons_append, read, suffixesWith]
    simp only [skipped, Cursor.char?_cons_self, ident, named, orMiss, Except.ok_bind]
  · simp only [Expr.erase, same]
    rfl

theorem closes_of_quantifier (quantifier : Quantifier) :
    Cursor.isSkipped quantifier.symbol = false ∧ isIdentPart quantifier.symbol = false ∧
      quantifier.symbol ≠ '/' ∧ quantifier.symbol ≠ '.' ∧ quantifier.symbol ≠ '(' := by
  cases quantifier <;> decide

theorem Suffixes.quantified {conditionText : List Char} {condition : Expr}
    (collection : Suffixes comments text expr) (quantifier : Quantifier)
    (reads : ReadsAt comments 0 conditionText condition) (starts : Starts false conditionText)
    (span : Span) :
    Suffixes comments (text ++ quantifier.symbol :: '[' :: (conditionText ++ [']']))
      (.quantified expr quantifier condition span) := by
  intro rest offset start fuel ends enough
  simp only [List.length_append, List.length_cons, List.length_nil] at enough ⊢
  obtain ⟨kept, noPart, noSlash, noPoint, noCall⟩ := closes_of_quantifier quantifier
  have symbol : Leads comments (quantifier.symbol :: '[' :: (conditionText ++ ']' :: rest))
      (quantifier.symbol :: '[' :: (conditionText ++ ']' :: rest)) :=
    Cursor.leads_of_ne_slash kept noSlash
  have bracket : Leads comments ('[' :: (conditionText ++ ']' :: rest))
      ('[' :: (conditionText ++ ']' :: rest)) := Cursor.leads_of_ne_slash (by decide) (by decide)
  -- The symbol ends the word before it, and is no point.
  have collectionEnds :
      WordEnds comments (quantifier.symbol :: '[' :: (conditionText ++ ']' :: rest)) := by
    refine ⟨by simpa using noPart, ?_, _, symbol, by simpa using noCall⟩
    intro digits same
    exact absurd (List.cons.inj same).1 noPoint
  obtain ⟨value, after, left, spare, read, same⟩ :=
    collection _ offset start fuel collectionEnds (by omega)
  obtain ⟨left, rfl⟩ : ∃ less, left = less + 1 := ⟨left - 1, by omega⟩
  obtain ⟨behind, skipped⟩ := symbol after
  obtain ⟨opening, skippedBracket⟩ := bracket (behind + quantifier.symbol.utf8Size)
  have opened : quantifier? comments
      ⟨behind, quantifier.symbol :: '[' :: (conditionText ++ ']' :: rest)⟩ =
        some (quantifier, ⟨opening + '['.utf8Size, conditionText ++ ']' :: rest⟩) := by
    simp only [quantifier?, Quantifier.ofSymbol?_symbol, skippedBracket, Cursor.char?_cons_self,
      Option.map_some]
  have conditionEnds : Ends comments 1 (']' :: rest) :=
    ends_cons (by decide) (by decide) (by decide)
  obtain ⟨inner, close, conditionRead, sameCondition⟩ := expressionWith_of_readsAt reads
    starts.length_pos (starts.append _).leads conditionEnds (show _ ≤ left by omega)
    (opening + '['.utf8Size)
  obtain ⟨last, closed⟩ := char_of_leads (leads_close comments (.inr rfl) rest) .conditionEnd close
  refine ⟨.quantified value quantifier inner ⟨start, last⟩, last, left, by omega, ?_, ?_⟩
  · have chars : text ++ quantifier.symbol :: '[' :: (conditionText ++ [']']) ++ rest =
        text ++ quantifier.symbol :: '[' :: (conditionText ++ ']' :: rest) := by simp
    rw [chars, read, suffixesWith]
    simp only [skipped, Cursor.char?_of_ne noPoint, opened, conditionRead, closed, Except.ok_bind]
  · simp only [Expr.erase, same, sameCondition]

end Schemata.Reading
