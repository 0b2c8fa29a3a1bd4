import Schemata.Proofs.Syntax.ExprInduction
import Schemata.Proofs.Syntax.PrimaryForms

set_option autoImplicit false

namespace Schemata

theorem Expr.printAt_zero (expr : Expr) : expr.printAt 0 = expr.printAt 1 := by
  cases expr with
  | binary op =>
    have positive : ¬ op.precedence < 1 := by cases op <;> decide
    simp [Expr.printAt, positive]
  | _ => rfl

theorem toList_parenthesized (enclosed : Bool) (text : String) :
    (parenthesized enclosed text).toList =
      if enclosed then '(' :: text.toList ++ [')'] else text.toList := by
  cases enclosed with
  | false => rfl
  | true => simp [parenthesized]

namespace Reading

open Cursor (Leads)

variable {comments : Bool} {level : Nat} {text rest : List Char} {expr : Expr}

theorem ReadsAt.unary (reads : ReadsAt comments 6 text expr) (starts : Starts false text)
    (op : UnaryOp) (span : Span) :
    ReadsAt comments 6 (op.symbol :: text) (.unary op expr span) := by
  intro chars rest offset fuel leads ends enough
  simp only [List.length_cons] at enough
  obtain ⟨fuel, rfl⟩ : ∃ less, fuel = less + 2 := ⟨fuel - 2, by omega⟩
  obtain ⟨start, skipped⟩ := leads offset
  have levels : BinaryOp.levels.drop 6 = [] := rfl
  obtain ⟨value, after, read, same⟩ := reads _ rest (start + op.symbol.utf8Size) (fuel + 1)
    (starts.append rest).leads ends (by omega)
  rw [levels, binaryWith] at read
  refine ⟨.unary op value ⟨start, after⟩, after, ?_, by simp only [Expr.erase, same]⟩
  rw [levels, binaryWith, unaryWith]
  simp only [skipped, List.cons_append, unaryOp?, UnaryOp.ofSymbol?_symbol, Option.map_some, read,
    Except.ok_bind]

theorem JoinsAt.binary {leftText rightText : List Char} {left right : Expr} {op : BinaryOp}
    (joins : JoinsAt comments level leftText left)
    (reads : ReadsAt comments (level + 1) rightText right) (starts : Starts false rightText)
    (precedence : op.precedence = level + 1) (span : Span) :
    JoinsAt comments level (leftText ++ (' ' :: op.symbol.toList ++ ' ' :: rightText))
      (.binary op left right span) := by
  intro ops tighter levels chars rest offset fuel leads ends enough
  simp only [List.length_append, List.length_cons] at enough ⊢
  have bound := lt_of_drop_levels levels
  have regroup : leftText ++ (' ' :: op.symbol.toList ++ ' ' :: rightText) ++ rest =
      leftText ++ (' ' :: op.symbol.toList ++ ' ' :: (rightText ++ rest)) := by simp
  rw [regroup] at leads
  -- The operator of the level ends the left operand, and is the first one that is found there.
  have leftEnds : Ends comments (level + 2)
      (' ' :: op.symbol.toList ++ ' ' :: (rightText ++ rest)) := ends_symbol (by omega)
  obtain ⟨first, middle, more, spare, leftRead, sameLeft⟩ :=
    joins ops tighter levels chars _ offset fuel leads leftEnds (by omega)
  obtain ⟨more, rfl⟩ : ∃ less, more = less + 1 := ⟨more - 1, by omega⟩
  have ahead : Leads comments (' ' :: op.symbol.toList ++ ' ' :: (rightText ++ rest))
      (op.symbol.toList ++ ' ' :: (rightText ++ rest)) := (leads_symbol op).blank rfl
  obtain ⟨symbol, skipped⟩ := ahead middle
  obtain ⟨behind, found⟩ := operator?_symbol levels precedence (rightText ++ rest) symbol
  obtain ⟨second, after, rightRead, sameRight⟩ := reads (' ' :: (rightText ++ rest)) rest behind
    more ((starts.append rest).leads.blank rfl) ends (by omega)
  rw [← tighter_of_drop_levels levels] at rightRead
  refine ⟨.binary op first second (first.span.cover second.span), after, more, by omega, ?_, ?_⟩
  · rw [leftRead, joinWith]
    simp only [List.cons_append] at skipped ⊢
    simp only [skipped, found, rightRead, Except.ok_bind]
  · simp only [Expr.erase, sameLeft, sameRight]

/-- The text starts with no name that a colon might follow. -/
def Unlabelled (comments : Bool) (text : List Char) : Prop :=
  ∀ chars rest offset, Leads comments chars (text ++ rest) →
    rest.head?.any isIdentPart = false →
    (∃ next, Leads comments rest next ∧ next.head? ≠ some ':') →
    label? comments ⟨offset, chars⟩ = none

theorem unlabelled_cons {first : Char} {others : List Char} (noStart : isIdentStart first = false) :
    Unlabelled comments (first :: others) := by
  intro chars rest offset leads _ _
  obtain ⟨start, skipped⟩ := leads offset
  simp [label?, Cursor.ident?, skipped, Cursor.identifier?, noStart]

theorem unlabelled_name {name : String} (isName : IsName name) :
    Unlabelled comments name.toList := by
  intro chars rest offset leads stop ⟨next, ahead, noColon⟩
  obtain ⟨span, after, read⟩ := Cursor.ident?_name offset isName leads stop
  obtain ⟨start, skipped⟩ := ahead after
  simp only [label?, read, skipped, Cursor.char?_of_head noColon, Option.map_none]

theorem Unlabelled.append {others : List Char} (unlabelled : Unlabelled comments text)
    (stop : others.head?.any isIdentPart = false)
    (ahead : ∀ rest, ∃ next, Leads comments (others ++ rest) next ∧ next.head? ≠ some ':') :
    Unlabelled comments (text ++ others) := by
  intro chars rest offset leads stopRest aheadRest
  rw [List.append_assoc] at leads
  cases others with
  | nil => exact unlabelled chars rest offset leads stopRest aheadRest
  | cons first others => exact unlabelled chars _ offset leads stop (ahead rest)

theorem Unlabelled.append_cons {first : Char} {others : List Char}
    (unlabelled : Unlabelled comments text) (kept : Cursor.isSkipped first = false)
    (stop : isIdentPart first = false) (noSlash : first ≠ '/') (noColon : first ≠ ':') :
    Unlabelled comments (text ++ first :: others) := by
  apply unlabelled.append (by simpa using stop)
  intro rest
  exact ⟨_, Cursor.leads_of_ne_slash kept noSlash, by simpa using noColon⟩

theorem Unlabelled.binary (unlabelled : Unlabelled comments text) (op : BinaryOp)
    (others : List Char) :
    Unlabelled comments (text ++ (' ' :: op.symbol.toList ++ ' ' :: others)) := by
  apply unlabelled.append rfl
  intro rest
  obtain ⟨first, behind, symbol, goesOn, _, _⟩ := symbol_eq_cons op
  refine ⟨op.symbol.toList ++ ' ' :: (others ++ rest), ?_, ?_⟩
  · have ahead : Leads comments (' ' :: (op.symbol.toList ++ ' ' :: (others ++ rest)))
        (op.symbol.toList ++ ' ' :: (others ++ rest)) := (leads_symbol op).blank rfl
    simpa using ahead
  · rw [symbol, List.cons_append, List.head?_cons]
    rintro ⟨⟩
    exact absurd goesOn (by decide)

structure ReadsBack (comments : Bool) (expr : Expr) : Prop where
  starts : ∀ binding, Starts false (expr.printAt binding).toList
  unlabelled : ∀ binding, Unlabelled comments (expr.printAt binding).toList
  reads : ∀ level ≤ 6, ReadsAt comments level (expr.printAt (level + 1)).toList expr
  joins : ∀ level < 6, JoinsAt comments level (expr.printAt (level + 1)).toList expr
  suffixes : Suffixes comments (expr.printAt 8).toList expr
  operand : Starts true (expr.printAt 8).toList

theorem Starts.of_isName {name : String} (isName : IsName name) : Starts true name.toList := by
  obtain ⟨first, others, chars, start⟩ := isName.exists_cons
  exact ⟨first, others, chars, by simp [startsExpr, start],
    fun _ => ⟨ne_of_test start (by decide), ne_of_test start (by decide)⟩⟩

theorem readsBack_of_suffixes (printed : ∀ binding, (expr.printAt binding).toList = text)
    (suffixes : Suffixes comments text expr) (starts : Starts true text)
    (unlabelled : Unlabelled comments text) : ReadsBack comments expr where
  starts binding := by
    rw [printed]
    exact starts.weaken
  unlabelled binding := by
    rw [printed]
    exact unlabelled
  reads level bound := by
    rw [printed]
    exact (suffixes.readsAt starts).of_le starts.length_pos (Nat.le_refl 6) bound
  joins level bound := by
    rw [printed]
    have reads := (suffixes.readsAt starts).of_le starts.length_pos (Nat.le_refl 6) bound
    exact reads.joinsAt starts.length_pos
  suffixes := by
    rw [printed]
    exact suffixes
  operand := by
    rw [printed]
    exact starts

theorem readsBack_of_parenthesized {text : String} (bound : level ≤ 6)
    (printed : ∀ binding, expr.printAt binding = parenthesized (decide (level + 1 < binding)) text)
    (reads : ReadsAt comments level text.toList expr)
    (joins : level < 6 → JoinsAt comments level text.toList expr)
    (starts : Starts false text.toList) (unlabelled : Unlabelled comments text.toList) :
    ReadsBack comments expr := by
  have loosest : ReadsAt comments 0 text.toList expr :=
    reads.of_le starts.length_pos bound (Nat.zero_le level)
  have enclosedStarts : Starts true ('(' :: text.toList ++ [')']) :=
    ⟨'(', text.toList ++ [')'], rfl, by decide, by decide⟩
  have enclosed : Suffixes comments ('(' :: text.toList ++ [')']) expr :=
    (loosest.parenthesized starts).suffixes enclosedStarts.length_pos
  have enclosedReads := enclosed.readsAt enclosedStarts
  constructor
  case starts =>
    intro binding
    rw [printed, toList_parenthesized]
    split
    · exact enclosedStarts.weaken
    · exact starts
  case unlabelled =>
    intro binding
    rw [printed, toList_parenthesized]
    split
    · exact unlabelled_cons (by decide)
    · exact unlabelled
  case reads =>
    intro other otherBound
    rw [printed, toList_parenthesized]
    -- Where a tighter operand is asked for, the parentheses stand.
    by_cases looser : level + 1 < other + 1
    · rw [decide_eq_true looser, if_pos rfl]
      exact enclosedReads.of_le enclosedStarts.length_pos (Nat.le_refl 6) otherBound
    · rw [decide_eq_false looser, if_neg (by decide)]
      exact reads.of_le starts.length_pos bound (by omega)
  case joins =>
    intro other otherBound
    rw [printed, toList_parenthesized]
    by_cases looser : level + 1 < other + 1
    · rw [decide_eq_true looser, if_pos rfl]
      have tighter := enclosedReads.of_le enclosedStarts.length_pos (Nat.le_refl 6) otherBound
      exact tighter.joinsAt enclosedStarts.length_pos
    · rw [decide_eq_false looser, if_neg (by decide)]
      -- At its own level the form is joined as it is; at a looser one, as an operand.
      by_cases same : other = level
      · subst same
        exact joins otherBound
      · have tighter := reads.of_le starts.length_pos bound (show other + 1 ≤ level by omega)
        exact tighter.joinsAt starts.length_pos
  case suffixes =>
    rw [printed, toList_parenthesized, decide_eq_true (by omega), if_pos rfl]
    exact enclosed
  case operand =>
    rw [printed, toList_parenthesized, decide_eq_true (by omega), if_pos rfl]
    exact enclosedStarts

theorem ReadsBack.readsLoosest (back : ReadsBack comments expr) :
    ReadsAt comments 0 (expr.printAt 0).toList expr := by
  rw [Expr.printAt_zero]
  exact back.reads 0 (Nat.zero_le 6)

theorem ReadsBack.positional (back : ReadsBack comments expr) {fuel : Nat}
    (enough : 16 * (expr.printAt 0).toList.length < fuel) :
    ReadsItem comments ')' (argumentWith comments fuel) Argument.erase
      (expr.printAt 0).toList (.positional expr) where
  solid := (back.starts 0).isSolid (.inl rfl)
  reads := by
    intro chars ending others offset leads among
    obtain ⟨fuel, rfl⟩ : ∃ less, fuel = less + 1 := ⟨fuel - 1, by omega⟩
    have item : ReadsItem comments ')' (expressionWith comments fuel) Expr.erase
        (expr.printAt 0).toList expr :=
      back.readsLoosest.readsItem (back.starts 0) (.inl rfl) (by omega)
    obtain ⟨value, after, read, same⟩ := item.reads chars ending others offset leads among
    -- The value must not be taken for a name with a colon behind it.
    have unlabelled : label? comments ⟨offset, chars⟩ = none := by
      apply back.unlabelled 0 chars (ending :: others) offset leads
      · rcases among with rfl | rfl <;> rfl
      · refine ⟨ending :: others, ?_, ?_⟩
        · rcases among with rfl | rfl <;> exact Cursor.leads_of_ne_slash (by decide) (by decide)
        · rcases among with rfl | rfl <;> simp
    refine ⟨.positional value, after, ?_, by simp only [Argument.erase, same]⟩
    simp only [argumentWith, unlabelled, read, Except.ok_bind]

theorem ReadsBack.named (back : ReadsBack comments expr) {name : Ident} {fuel : Nat}
    (isName : IsName name.name)
    (enough : 16 * (Argument.named name expr).print.toList.length < fuel) :
    ReadsItem comments ')' (argumentWith comments fuel) Argument.erase
      (Argument.named name expr).print.toList (.named name expr) where
  solid := by
    have starts := (Starts.of_isName isName).append (": " ++ expr.printAt 0).toList
    rw [← String.toList_append, ← String.append_assoc] at starts
    exact starts.isSolid (.inl rfl)
  reads := by
    intro chars ending others offset leads among
    obtain ⟨fuel, rfl⟩ : ∃ less, fuel = less + 1 := ⟨fuel - 1, by omega⟩
    have whole : (Argument.named name expr).print.toList =
        name.name.toList ++ ':' :: ' ' :: (expr.printAt 0).toList := by
      simp [Argument.print]
    rw [whole, List.append_assoc, List.cons_append, List.cons_append] at leads
    rw [whole, List.length_append, List.length_cons, List.length_cons] at enough
    have item : ReadsItem comments ')' (expressionWith comments fuel) Expr.erase
        (expr.printAt 0).toList expr :=
      back.readsLoosest.readsItem (back.starts 0) (.inl rfl) (by omega)
    obtain ⟨span, behind, named⟩ := Cursor.ident?_name offset isName leads rfl
    have colon : Leads comments (':' :: ' ' :: ((expr.printAt 0).toList ++ ending :: others))
        (':' :: ' ' :: ((expr.printAt 0).toList ++ ending :: others)) :=
      Cursor.leads_of_ne_slash (by decide) (by decide)
    obtain ⟨skipped, skip⟩ := colon behind
    obtain ⟨value, after, read, same⟩ := item.reads (' ' :: _) ending others
      (skipped + ':'.utf8Size) ((item.solid.leads comments _).blank rfl) among
    refine ⟨.named ⟨name.name, span⟩ value, after, ?_, by simp only [Argument.erase, same]; rfl⟩
    simp only [argumentWith, label?, named, skip, Cursor.char?_cons_self, Option.map_some, read,
      Except.ok_bind]

theorem readsItem_argument {argument : Argument} {fuel : Nat}
    (wellFormed : argument.WellFormed) (back : ReadsBack comments argument.value)
    (enough : 16 * argument.print.toList.length < fuel) :
    ReadsItem comments ')' (argumentWith comments fuel) Argument.erase argument.print.toList
      argument := by
  cases argument with
  | positional value =>
    rw [Argument.print] at enough ⊢
    exact back.positional enough
  | named name value => exact back.named wellFormed.1 enough

theorem readsBack_of_primary (printed : ∀ binding, (expr.printAt binding).toList = text)
    (reads : PrimaryReads comments text expr) (starts : Starts true text)
    (unlabelled : Unlabelled comments text) : ReadsBack comments expr :=
  readsBack_of_suffixes printed (reads.suffixes starts.length_pos) starts unlabelled

theorem starts_literal {value : Literal} (wellFormed : value.WellFormed) :
    Starts true value.print.toList ∧ Unlabelled comments value.print.toList := by
  cases value with
  | string text =>
    rw [Literal.print, Quoted.quote, String.toList_ofList, Quoted.encode, List.cons_append]
    exact ⟨⟨_, _, rfl, by decide, by decide⟩, unlabelled_cons (by decide)⟩
  | number text =>
    obtain ⟨first, others, chars, digit⟩ := wellFormed.exists_cons
    rw [Literal.print, chars]
    have noStart : isIdentStart first = false := by
      cases start : isIdentStart first with
      | false => rfl
      | true =>
        rw [isDigit_of_isIdentStart start] at digit
        cases digit
    have noOperator : first ≠ '!' ∧ first ≠ '-' :=
      ⟨ne_of_test digit (by decide), ne_of_test digit (by decide)⟩
    exact ⟨⟨first, others, rfl, by simp [startsExpr, digit], fun _ => noOperator⟩,
      unlabelled_cons noStart⟩
  | boolean value =>
    cases value with
    | true => exact ⟨.of_isName (.of_all rfl rfl), unlabelled_name (.of_all rfl rfl)⟩
    | false => exact ⟨.of_isName (.of_all rfl rfl), unlabelled_name (.of_all rfl rfl)⟩
  | null => exact ⟨.of_isName (.of_all rfl rfl), unlabelled_name (.of_all rfl rfl)⟩

theorem readsBack_literal {value : Literal} (wellFormed : value.WellFormed) (span : Span) :
    ReadsBack comments (.literal value span) := by
  obtain ⟨starts, unlabelled⟩ := starts_literal wellFormed
  exact readsBack_of_primary (fun _ => rfl) (primaryReads_literal wellFormed span) starts unlabelled

theorem readsBack_this (span : Span) : ReadsBack comments (.this span) :=
  readsBack_of_primary (fun _ => rfl) (primaryReads_this span) (.of_isName (.of_all rfl rfl))
    (unlabelled_name (.of_all rfl rfl))

theorem readsBack_reference {name : Ident} (isPlain : IsPlainName name.name) (span : Span) :
    ReadsBack comments (.reference name span) :=
  readsBack_of_primary (fun _ => rfl) (primaryReads_reference isPlain span)
    (.of_isName isPlain.isName) (unlabelled_name isPlain.isName)

theorem ReadsBack.access {member : Ident} (back : ReadsBack comments expr)
    (isName : IsName member.name) (span : Span) :
    ReadsBack comments (.access expr member span) := by
  have printed : ∀ binding, ((Expr.access expr member span).printAt binding).toList =
      (expr.printAt 8).toList ++ '.' :: member.name.toList := by
    intro binding
    simp [Expr.printAt]
  exact readsBack_of_suffixes printed (back.suffixes.access isName span) (back.operand.append _)
    ((back.unlabelled 8).append_cons (by decide) (by decide) (by decide) (by decide))

theorem ReadsBack.unary (back : ReadsBack comments expr) (op : UnaryOp) (span : Span) :
    ReadsBack comments (.unary op expr span) := by
  have whole : (op.symbol.toString ++ expr.printAt 7).toList =
      op.symbol :: (expr.printAt 7).toList := by simp
  refine readsBack_of_parenthesized (Nat.le_refl 6) (fun _ => rfl) ?_ ?_ ?_ ?_
  · rw [whole]
    exact (back.reads 6 (Nat.le_refl 6)).unary (back.starts 7) op span
  · exact fun impossible => absurd impossible (by decide)
  · rw [whole]
    exact ⟨op.symbol, _, rfl, by cases op <;> decide, nofun⟩
  · rw [whole]
    exact unlabelled_cons (by cases op <;> decide)

theorem ReadsBack.binary {left right : Expr} (leftBack : ReadsBack comments left)
    (rightBack : ReadsBack comments right) (op : BinaryOp) (span : Span) :
    ReadsBack comments (.binary op left right span) := by
  obtain ⟨level, precedence⟩ : ∃ level, op.precedence = level + 1 := by cases op <;> exact ⟨_, rfl⟩
  have bound : level < 6 := by
    have most : op.precedence ≤ 6 := by cases op <;> decide
    omega
  have whole : (left.printAt (level + 1) ++ " " ++ op.symbol ++ " " ++
      right.printAt (level + 1 + 1)).toList = (left.printAt (level + 1)).toList ++
        (' ' :: op.symbol.toList ++ ' ' :: (right.printAt (level + 1 + 1)).toList) := by simp
  have joins : JoinsAt comments level _ (.binary op left right span) :=
    (leftBack.joins level bound).binary (rightBack.reads (level + 1) bound)
      (rightBack.starts (level + 1 + 1)) precedence span
  have printed : ∀ binding, (Expr.binary op left right span).printAt binding =
      parenthesized (decide (level + 1 < binding)) (left.printAt (level + 1) ++ " " ++ op.symbol ++
        " " ++ right.printAt (level + 1 + 1)) := by
    intro binding
    rw [Expr.printAt, precedence]
  refine readsBack_of_parenthesized (Nat.le_of_lt bound) printed ?_ ?_ ?_ ?_
  · rw [whole]
    exact joins.readsAt bound
  · rw [whole]
    exact fun _ => joins
  · rw [whole]
    exact (leftBack.starts _).append _
  · rw [whole]
    exact (leftBack.unlabelled _).binary op _

theorem readsBack_call {function : Ident} {arguments : List Argument}
    (isPlain : IsPlainName function.name) (wellFormed : ∀ argument ∈ arguments, argument.WellFormed)
    (each : ∀ argument ∈ arguments, ReadsBack comments argument.value) (span : Span) :
    ReadsBack comments (.call function arguments span) := by
  have printed : ∀ binding, ((Expr.call function arguments span).printAt binding).toList =
      function.name.toList ++
        '(' :: (commaSeparated (arguments.map Argument.print)).toList ++ [')'] := by
    intro binding
    simp [Expr.printAt, Argument.printAll_eq_map]
  have reads : PrimaryReads comments _ (.call function arguments span) :=
    primaryReads_call isPlain span fun argument found fuel enough =>
      readsItem_argument (wellFormed argument found) (each argument found) enough
  refine readsBack_of_primary printed reads ?_ ?_
  · rw [List.append_assoc]
    exact (Starts.of_isName isPlain.isName).append _
  · rw [List.append_assoc, List.cons_append]
    exact (unlabelled_name isPlain.isName).append_cons (by decide) (by decide) (by decide)
      (by decide)

theorem readsBack_list {values : List Expr} (each : ∀ value ∈ values, ReadsBack comments value)
    (span : Span) : ReadsBack comments (.list values span) := by
  have printed : ∀ binding, ((Expr.list values span).printAt binding).toList =
      '[' :: (commaSeparated (values.map (Expr.printAt 0))).toList ++ [']'] := by
    intro binding
    simp [Expr.printAt, Expr.printAll_eq_map]
  have reads := primaryReads_list span fun value found =>
    ⟨(each value found).readsLoosest, (each value found).starts 0⟩
  exact readsBack_of_primary printed reads ⟨_, _, rfl, by decide, by decide⟩
    (unlabelled_cons (by decide))

theorem ReadsBack.quantified {condition : Expr} (collection : ReadsBack comments expr)
    (quantifier : Quantifier) (back : ReadsBack comments condition) (span : Span) :
    ReadsBack comments (.quantified expr quantifier condition span) := by
  have printed : ∀ binding,
      ((Expr.quantified expr quantifier condition span).printAt binding).toList =
        (expr.printAt 8).toList ++
          quantifier.symbol :: '[' :: ((condition.printAt 0).toList ++ [']']) := by
    intro binding
    simp [Expr.printAt]
  obtain ⟨kept, noPart, noSlash, _, _⟩ := closes_of_quantifier quantifier
  refine readsBack_of_suffixes printed ?_ (collection.operand.append _) ?_
  · exact collection.suffixes.quantified quantifier back.readsLoosest (back.starts 0) span
  · exact (collection.unlabelled 8).append_cons kept noPart noSlash (by cases quantifier <;> decide)

theorem readsBack {expr : Expr} (wellFormed : expr.WellFormed) : ReadsBack comments expr := by
  -- What is known of the parts holds at all levels, since the form around them sets theirs.
  induction expr using Expr.inductionOn with
  | literal value span => exact readsBack_literal wellFormed span
  | this span => exact readsBack_this span
  | reference name span => exact readsBack_reference wellFormed span
  | access object member span ih => exact (ih wellFormed.1).access wellFormed.2 span
  | unary op operand span ih => exact (ih wellFormed).unary op span
  | binary op left right span leftIh rightIh =>
    exact (leftIh wellFormed.1).binary (rightIh wellFormed.2) op span
  | call function arguments span ih =>
    have formed := Argument.allWellFormed_iff.1 wellFormed.2
    refine readsBack_call wellFormed.1 formed ?_ span
    exact fun argument found => ih argument found (formed argument found).value
  | list items span ih =>
    have formed := Expr.allWellFormed_iff.1 wellFormed
    exact readsBack_list (fun item found => ih item found (formed item found)) span
  | quantified collection quantifier condition span collectionIh conditionIh =>
    exact (collectionIh wellFormed.1).quantified quantifier (conditionIh wellFormed.2) span

theorem leads_print (comments : Bool) {expr : Expr} (wellFormed : expr.WellFormed)
    (rest : List Char) :
    Leads comments (expr.print.toList ++ rest) (expr.print.toList ++ rest) := by
  have back : ReadsBack comments expr := readsBack wellFormed
  exact ((back.starts 0).append rest).leads

theorem expression_print {expr : Expr} (wellFormed : expr.WellFormed) {chars : List Char}
    (leads : Leads comments chars (expr.print.toList ++ rest)) (ends : Ends comments 1 rest)
    (offset : Nat) : ∃ value after,
      expression comments ⟨offset, chars⟩ = .ok (value, ⟨after, rest⟩) ∧
        value.erase = expr.erase := by
  have back : ReadsBack comments expr := readsBack wellFormed
  have bound := leads.length_le
  rw [List.length_append] at bound
  refine expressionWith_of_readsAt back.readsLoosest (back.starts 0).length_pos leads ends ?_ offset
  unfold Expr.print at bound
  simp only [fuelFor]
  omega

theorem arguments_print (comments : Bool) {values : List Argument}
    (wellFormed : ∀ value ∈ values, value.WellFormed) (rest : List Char) (offset : Nat) :
    ∃ read after, arguments comments
        ⟨offset, (commaSeparated (values.map Argument.print)).toList ++ ')' :: rest⟩ =
          .ok (read, ⟨after, rest⟩) ∧ read.map Argument.erase = values.map Argument.erase := by
  apply items_commaSeparated (.inl rfl)
  intro value found
  have part := length_le_commaSeparated_of_mem (List.mem_map_of_mem (f := Argument.print) found)
  apply readsItem_argument (wellFormed value found) (readsBack (wellFormed value found).value)
  rw [fuelFor, List.length_append]
  omega

end Reading

theorem Expr.readWith_print {expr : Expr} (comments : Bool) (wellFormed : expr.WellFormed) :
    ∃ value, Expr.readWith comments expr.print = .ok value ∧ value.erase = expr.erase := by
  obtain ⟨value, after, read, same⟩ := Reading.expression_print wellFormed
    (Reading.leads_print comments wellFormed []) Reading.ends_nil 0
  refine ⟨value, ?_, same⟩
  have text : Cursor.ofText expr.print = ⟨0, expr.print.toList ++ []⟩ := by
    rw [List.append_nil, Cursor.ofText]
  have ending : Cursor.Leads comments [] [] := Cursor.leads_nil
  obtain ⟨last, done⟩ := ending after
  rw [Expr.readWith]
  refine Except.mapError_eq_ok.2 ?_
  simp only [text, read, Except.ok_bind, done, List.isEmpty_nil, if_true]

theorem Expr.printAt_eq_parenthesized (expr : Expr) {binding : Nat} (bound : binding ≤ 8) :
    expr.printAt binding = parenthesized (decide (expr.precedence < binding)) expr.print := by
  cases expr with
  | unary op operand span =>
    rw [print, printAt, printAt, precedence]
    rfl
  | binary op left right span =>
    rw [print, printAt, printAt, precedence, decide_eq_false (Nat.not_lt_zero op.precedence)]
    rfl
  | _ =>
    -- All other forms bind as tightly as any place asks for.
    have tight : ¬ 8 < binding := Nat.not_lt.2 bound
    simp [printAt, print, precedence, parenthesized, tight]

theorem Expr.wellFormed_erase {expr : Expr} : expr.erase.WellFormed ↔ expr.WellFormed := by
  induction expr using Expr.inductionOn with
  | literal | this | reference => exact Iff.rfl
  | access object member span ih => exact and_congr_left' ih
  | unary op operand span ih => exact ih
  | binary op left right span leftIh rightIh => exact and_congr leftIh rightIh
  | call function arguments span ih =>
    rw [erase, WellFormed, WellFormed, Argument.eraseAll_eq_map, Argument.allWellFormed_iff,
      Argument.allWellFormed_iff, List.forall_mem_map]
    refine and_congr_right' (forall₂_congr fun argument found => ?_)
    cases argument with
    | positional value => exact ih _ found
    | named name value => exact and_congr_right' (ih _ found)
  | list items span ih =>
    rw [erase, WellFormed, WellFormed, eraseAll_eq_map, allWellFormed_iff, allWellFormed_iff,
      List.forall_mem_map]
    exact forall₂_congr ih
  | quantified collection quantifier condition span collectionIh conditionIh =>
    exact and_congr collectionIh conditionIh

/--
Exactly the well-formed trees are what their printed form reads back to, up to places. Operands are
printed in parentheses where their precedence asks for them.
-/
theorem Expr.wellFormed_iff_read_print (expr : Expr) :
    (expr.WellFormed ↔ ∃ value, Expr.read expr.print = .ok value ∧ value.erase = expr.erase) ∧
      ∀ binding ≤ 8, expr.printAt binding =
        parenthesized (decide (expr.precedence < binding)) expr.print := by
  refine ⟨⟨Expr.readWith_print true, ?_⟩, fun _ => expr.printAt_eq_parenthesized⟩
  rintro ⟨value, read, same⟩
  have formed := Expr.wellFormed_erase.2 (Expr.wellFormed_of_readWith read)
  exact Expr.wellFormed_erase.1 (same ▸ formed)

end Schemata
