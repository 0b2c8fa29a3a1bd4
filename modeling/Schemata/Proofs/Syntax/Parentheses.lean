import Mathlib.Algebra.Ring.Nat
import Schemata.Proofs.Places.Syntax
import Schemata.Proofs.Syntax.ExprRoundTrip
import Schemata.Proofs.Syntax.ExprSteps
import Schemata.Proofs.Syntax.Passages

/-!
# Parentheses that are needed

A text has at least as many opening parentheses as the printed form of the expression that it reads
as. So none of the printed parentheses can be left out: with fewer of them, a text reads as another
expression or as none.
-/

set_option autoImplicit false

namespace Schemata

def openings (text : String) : Nat := text.toList.count '('

@[simp] theorem openings_append (left right : String) :
    openings (left ++ right) = openings left + openings right := by
  rw [openings, String.toList_append, List.count_append]
  rfl

theorem openings_parenthesized (enclosed : Bool) (text : String) :
    openings (parenthesized enclosed text) = openings text + enclosed.toNat := by
  cases enclosed with
  | false => rfl
  | true =>
    have outside : openings "(" = 1 ∧ openings ")" = 0 := by decide
    rw [parenthesized, if_pos rfl, openings_append, openings_append, outside.1, outside.2,
      Nat.add_comm 1]
    rfl

theorem openings_commaSeparated (texts : List String) :
    openings (commaSeparated texts) = (texts.map openings).sum := by
  induction texts with
  | nil => rfl
  | cons text others ih =>
    cases others with
    | nil => rfl
    | cons second others =>
      have comma : openings ", " = 0 := by decide
      rw [commaSeparated, openings_append, openings_append, comma, ih, List.map_cons,
        List.sum_cons, Nat.add_zero]
      · rfl
      · simp

theorem openings_symbol (op : BinaryOp) : openings op.symbol = 0 := by
  cases op <;> decide

theorem Quoted.count_flatMap_escape (text : List Char) :
    (text.flatMap escape).count '(' = text.count '(' := by
  induction text with
  | nil => rfl
  | cons char text ih =>
    have each : (escape char).count '(' = [char].count '(' := by
      unfold escape
      split <;> rfl
    rw [List.flatMap_cons, List.count_append, each, ih, ← List.count_append, List.singleton_append]

theorem openings_quote (text : String) : openings (Quoted.quote text) = openings text := by
  simp [openings, Quoted.quote, Quoted.encode, Quoted.count_flatMap_escape]

namespace Expr

def openingsAt (binding : Nat) (expr : Expr) : Nat := openings (expr.printAt binding)

variable {binding tighter : Nat}

theorem openingsAt_eq (expr : Expr) (bound : binding ≤ 8) :
    expr.openingsAt binding =
      openings expr.print + (decide (expr.precedence < binding)).toNat := by
  rw [openingsAt, expr.printAt_eq_parenthesized bound, openings_parenthesized]

theorem openingsAt_le (expr : Expr) (bound : binding ≤ 8) :
    expr.openingsAt binding ≤ expr.openingsAt 0 + 1 := by
  rw [expr.openingsAt_eq bound]
  exact Nat.add_le_add_left (Bool.toNat_le _) _

theorem openingsAt_mono (expr : Expr) (looser : binding ≤ tighter) (bound : tighter ≤ 8) :
    expr.openingsAt binding ≤ expr.openingsAt tighter := by
  rw [expr.openingsAt_eq (Nat.le_trans looser bound), expr.openingsAt_eq bound]
  refine Nat.add_le_add_left ?_ _
  by_cases enclosed : expr.precedence < binding
  · have stillEnclosed := Nat.lt_of_lt_of_le enclosed looser
    simp [enclosed, stillEnclosed]
  · simp [enclosed]

theorem openingsAt_withSpan (expr : Expr) (span : Span) :
    (expr.withSpan span).openingsAt binding = expr.openingsAt binding := by
  cases expr <;> rfl

theorem openingsAt_access (object : Expr) (member : Ident) (span : Span) :
    (access object member span).openingsAt 8 = object.openingsAt 8 + openings member.name := by
  have point : openings "." = 0 := by decide
  rw [openingsAt, printAt, openings_append, openings_append, point]
  rfl

theorem openingsAt_unary (op : UnaryOp) (operand : Expr) (span : Span) :
    (unary op operand span).openingsAt 7 = operand.openingsAt 7 := by
  have sign : openings op.symbol.toString = 0 := by cases op <;> decide
  rw [openingsAt, printAt, openings_parenthesized, openings_append, sign, Nat.zero_add]
  rfl

theorem openingsAt_binary {op : BinaryOp} (precedence : op.precedence = binding)
    (left right : Expr) (span : Span) :
    (binary op left right span).openingsAt binding =
      left.openingsAt binding + right.openingsAt (binding + 1) := by
  have space : openings " " = 0 := by decide
  rw [openingsAt, printAt, precedence, openings_parenthesized, decide_eq_false (Nat.lt_irrefl _),
    openings_append, openings_append, openings_append, openings_append, openings_symbol, space]
  rfl

theorem openingsAt_call (function : Ident) (arguments : List Argument) (span : Span) :
    (call function arguments span).openingsAt 8 =
      openings function.name + 1 + (arguments.map fun given => openings given.print).sum := by
  have outside : openings "(" = 1 ∧ openings ")" = 0 := by decide
  rw [openingsAt, printAt, openings_append, openings_append, openings_append, outside.1,
    outside.2, openings_commaSeparated, Argument.printAll_eq_map, List.map_map]
  rfl

theorem openingsAt_list (items : List Expr) (span : Span) :
    (list items span).openingsAt 8 = (items.map (openingsAt 0)).sum := by
  have outside : openings "[" = 0 ∧ openings "]" = 0 := by decide
  rw [openingsAt, printAt, openings_append, openings_append, outside.1, outside.2,
    openings_commaSeparated, printAll_eq_map, List.map_map, Nat.zero_add]
  rfl

theorem openingsAt_quantified (collection : Expr) (quantifier : Quantifier) (condition : Expr)
    (span : Span) : (quantified collection quantifier condition span).openingsAt 8 =
      collection.openingsAt 8 + condition.openingsAt 0 := by
  have outside : openings "[" = 0 ∧ openings "]" = 0 := by decide
  have sign : openings quantifier.symbol.toString = 0 := by cases quantifier <;> decide
  rw [openingsAt, printAt, openings_append, openings_append, openings_append, openings_append,
    outside.1, outside.2, sign]
  rfl

end Expr

namespace Cursor

variable {cursor after : Cursor}

def openings (cursor : Cursor) : Nat := cursor.rest.count '('

theorem Passes.openings_eq {chars : List Char} (passes : cursor.Passes chars after) :
    cursor.openings = chars.count '(' + after.openings := by
  rw [openings, passes.rest, List.count_append]
  rfl

theorem Reaches.openings_le (reaches : cursor.Reaches after) :
    after.openings ≤ cursor.openings := by
  obtain ⟨chars, passes⟩ := reaches
  rw [passes.openings_eq]
  exact Nat.le_add_left _ _

theorem count_decode {delimiter : Char} {body : List Char} :
    ∀ {escaped text rest}, Quoted.decode delimiter escaped body = some (text, rest) →
      text.count '(' + rest.count '(' ≤ body.count '(' := by
  induction body with
  | nil =>
    intro escaped text rest decoded
    cases escaped <;> cases decoded
  | cons char body ih =>
    have behind : body.count '(' ≤ (char :: body).count '(' := List.count_le_count_cons
    -- A character that is read counts as itself, and an escaped one as what it stands for.
    have onwards {escaped : Bool} {read : Char} {inner rest : List Char}
        (stands : read = '(' → char = '(')
        (decoded : Quoted.decode delimiter escaped body = some (inner, rest)) :
        (read :: inner).count '(' + rest.count '(' ≤ (char :: body).count '(' := by
      have bound := ih decoded
      by_cases opening : read = '('
      · rw [opening, stands opening, List.count_cons_self, List.count_cons_self]
        omega
      · rw [List.count_cons_of_ne opening]
        omega
    intro escaped text rest decoded
    cases escaped with
    | true =>
      obtain ⟨⟨inner, _⟩, decoded, same⟩ := Option.map_eq_some_iff.1 decoded
      cases same
      refine onwards (fun opening => ?_) decoded
      unfold Quoted.unescape at opening
      split at opening
      · cases opening
      · cases opening
      · cases opening
      · exact opening
    | false =>
      rw [Quoted.decode] at decoded
      split at decoded
      next =>
        cases decoded
        rwa [List.count_nil, Nat.zero_add]
      split at decoded
      next => exact Nat.le_trans (ih decoded) behind
      split at decoded
      next => cases decoded
      next =>
        obtain ⟨⟨inner, _⟩, decoded, same⟩ := Option.map_eq_some_iff.1 decoded
        cases same
        exact onwards id decoded

theorem openings_quoted? {text : String} (read : cursor.quoted? = some (text, after)) :
    Schemata.openings text + after.openings ≤ cursor.openings := by
  unfold quoted? at read
  split at read
  next delimiter body chars =>
    split at read
    next =>
      obtain ⟨⟨inner, rest⟩, decoded, same⟩ := Option.map_eq_some_iff.1 read
      cases same
      rw [Schemata.openings, String.toList_ofList, openings, openings, chars]
      exact Nat.le_trans (count_decode decoded) List.count_le_count_cons
    next => cases read
  next => cases read

end Cursor

namespace Reading

/--
What a step reads weighs no more than the opening parentheses that it takes, with so many given
beforehand.
-/
def Pays {α : Type} (given : Nat) (step : Cursor → Reading (α × Cursor)) (weight : α → Nat) :
    Prop :=
  ∀ cursor value after, step cursor = .ok (value, after) →
    weight value + after.openings ≤ given + cursor.openings

theorem ReadsName.openings_le {cursor after start : Cursor} {name : Ident}
    (reads : ReadsName cursor name after start) :
    openings name.name + after.openings ≤ cursor.openings := by
  have word := reads.passes.openings_eq
  have skipped := reads.reaches.openings_le
  rw [openings]
  omega

theorem openings_quoted {cursor after : Cursor} {text : String}
    (read : quoted cursor = .ok (text, after)) :
    openings text + after.openings ≤ cursor.openings := by
  unfold quoted at read
  split at read
  next found =>
    cases read
    exact Cursor.openings_quoted? found
  next => cases read

theorem openingsAt_reserved? {name : String} {span : Span} {word : Expr}
    (found : reserved? name span = some word) : word.openingsAt 8 = 0 := by
  have words : openings "true" = 0 ∧ openings "false" = 0 ∧ openings "null" = 0 ∧
      openings "this" = 0 := by decide
  unfold reserved? at found
  split at found <;> cases found <;>
    simp [Expr.openingsAt, Expr.printAt, Literal.print, words]

theorem itemsWith_pays {α : Type} {comments : Bool} {close : Char} {what : Expected}
    {item : Cursor → Reading (α × Cursor)} {weight : α → Nat} (each : Pays 0 item weight)
    (fuel : Nat) : Pays 0 (itemsWith comments close what item fuel)
      fun values => (values.map weight).sum := by
  induction fuel with
  | zero =>
    intro cursor values after read
    cases read
  | succ fuel ih =>
    intro cursor values after read
    have skipped := (Cursor.reaches_skip comments cursor).openings_le
    cases ItemsStep.of_read read with
    | none closed =>
      have closes := (Cursor.passes_char? closed).reaches.openings_le
      simp only [List.map_nil, List.sum_nil]
      omega
    | last head closed =>
      have first := each _ _ _ head
      have blanks := (Cursor.reaches_skip comments _).trans (Cursor.passes_char? closed).reaches
      have closes := blanks.openings_le
      simp only [List.map_cons, List.map_nil, List.sum_cons, List.sum_nil]
      omega
    | more head comma tail =>
      have first := each _ _ _ head
      have blanks := (Cursor.reaches_skip comments _).trans (Cursor.passes_char? comma).reaches
      have separates := blanks.openings_le
      have others := ih _ _ _ tail
      simp only [List.map_cons, List.sum_cons] at others ⊢
      omega

theorem items_pays {α : Type} {comments : Bool} {close : Char} {what : Expected}
    {item : Cursor → Reading (α × Cursor)} {weight : α → Nat} (each : Pays 0 item weight) :
    Pays 0 (items comments close what item) fun values => (values.map weight).sum :=
  fun cursor => itemsWith_pays each (cursor.rest.length + 1) cursor

structure PaysWith (comments : Bool) (fuel : Nat) : Prop where
  expression : Pays 0 (expressionWith comments fuel) (Expr.openingsAt 0)
  binary : ∀ level ≤ 6, Pays 0 (binaryWith comments fuel (BinaryOp.levels.drop level))
    (Expr.openingsAt (level + 1))
  join : ∀ level ops tighter left, BinaryOp.levels.drop level = ops :: tighter →
    Pays (left.openingsAt (level + 1)) (joinWith comments fuel ops tighter left)
      (Expr.openingsAt (level + 1))
  unary : Pays 0 (unaryWith comments fuel) (Expr.openingsAt 7)
  suffixes : ∀ start object, Pays (object.openingsAt 8) (suffixesWith comments fuel start object)
    (Expr.openingsAt 8)
  primary : Pays 0 (primaryWith comments fuel) (Expr.openingsAt 8)
  argument : Pays 0 (argumentWith comments fuel) fun given => openings given.print

section

variable {comments : Bool} {fuel : Nat}

theorem PaysWith.zero : PaysWith comments 0 where
  expression _ _ _ read := nomatch read
  binary _ _ _ _ _ read := by rw [binaryWith] at read; cases read
  join _ _ _ _ _ _ _ _ read := nomatch read
  unary _ _ _ read := nomatch read
  suffixes _ _ _ _ _ read := nomatch read
  primary _ _ _ read := nomatch read
  argument _ _ _ read := nomatch read

namespace PaysWith

variable (ih : PaysWith comments fuel)

include ih

theorem expression_succ : Pays 0 (expressionWith comments (fuel + 1)) (Expr.openingsAt 0) := by
  intro cursor expr after read
  rw [expressionWith] at read
  have paid := ih.binary 0 (Nat.zero_le _) cursor expr after read
  have looser := expr.openingsAt_mono (Nat.zero_le (0 + 1)) (by decide)
  omega

theorem binary_succ (level : Nat) (bound : level ≤ 6) :
    Pays 0 (binaryWith comments (fuel + 1) (BinaryOp.levels.drop level))
      (Expr.openingsAt (level + 1)) := by
  intro cursor expr after read
  cases levels : BinaryOp.levels.drop level with
  | nil =>
    -- Operands of the tightest level are those of unary operators.
    have tightest : 6 ≤ level := List.drop_eq_nil_iff.1 levels
    obtain rfl : level = 6 := Nat.le_antisymm bound tightest
    rw [levels, binaryWith] at read
    exact ih.unary cursor expr after read
  | cons ops tighter =>
    rw [levels, binaryWith] at read
    obtain ⟨⟨left, next⟩, leftRead, read⟩ := Except.bind_eq_ok.1 read
    have inner := lt_of_drop_levels levels
    rw [tighter_of_drop_levels levels] at leftRead
    have paid := ih.binary (level + 1) inner cursor left next leftRead
    have joined := ih.join level ops tighter left levels next expr after read
    have looser := left.openingsAt_mono (Nat.le_add_right (level + 1) 1) (by omega)
    omega

theorem join_succ (level : Nat) (ops : List BinaryOp) (tighter : List (List BinaryOp))
    (left : Expr) (levels : BinaryOp.levels.drop level = ops :: tighter) :
    Pays (left.openingsAt (level + 1)) (joinWith comments (fuel + 1) ops tighter left)
      (Expr.openingsAt (level + 1)) := by
  intro cursor expr after read
  have skipped := (Cursor.reaches_skip comments cursor).openings_le
  cases JoinStep.of_read read with
  | done => exact Nat.le_refl _
  | more operator operand rest =>
    have precedence := precedence_of_drop_levels levels _ (operator?_eq_some operator).1
    have sign := (passes_operator? operator).reaches.openings_le
    rw [tighter_of_drop_levels levels] at operand
    have paid := ih.binary (level + 1) (lt_of_drop_levels levels) _ _ _ operand
    have joined := ih.join level ops tighter _ levels _ expr after rest
    rw [Expr.openingsAt_binary precedence] at joined
    omega

theorem unary_succ : Pays 0 (unaryWith comments (fuel + 1)) (Expr.openingsAt 7) := by
  intro cursor expr after read
  have skipped := (Cursor.reaches_skip comments cursor).openings_le
  cases UnaryStep.of_read read with
  | operator sign inner =>
    have signed := (reaches_unaryOp? sign).openings_le
    have paid := ih.unary _ _ _ inner
    rw [Expr.openingsAt_unary]
    omega
  | suffixed primary suffixes =>
    have paid := ih.primary _ _ _ primary
    have suffixed := ih.suffixes _ _ _ expr after suffixes
    have looser : expr.openingsAt 7 ≤ expr.openingsAt 8 :=
      expr.openingsAt_mono (by decide) (Nat.le_refl 8)
    omega

theorem suffixes_succ (start : Nat) (object : Expr) :
    Pays (object.openingsAt 8) (suffixesWith comments (fuel + 1) start object)
      (Expr.openingsAt 8) := by
  intro cursor expr after read
  have skipped := (Cursor.reaches_skip comments cursor).openings_le
  cases SuffixStep.of_read read with
  | done => exact Nat.le_refl _
  | access point member rest =>
    have sign := (Cursor.passes_char? point).reaches.openings_le
    have word := (readsName_ident member).openings_le
    have suffixed := ih.suffixes start _ _ expr after rest
    rw [Expr.openingsAt_access] at suffixed
    omega
  | quantified opens inner closes rest =>
    have sign := (reaches_quantifier? opens).openings_le
    have paid := ih.expression _ _ _ inner
    have bracket := (reaches_char closes).openings_le
    have suffixed := ih.suffixes start _ _ expr after rest
    rw [Expr.openingsAt_quantified] at suffixed
    omega

/-- A pair of parentheses that stands in the text pays for the one that may be printed. -/
theorem primary_succ : Pays 0 (primaryWith comments (fuel + 1)) (Expr.openingsAt 8) := by
  intro cursor expr after read
  have skipped := (Cursor.reaches_skip comments cursor).openings_le
  cases PrimaryStep.of_read read with
  | @group grouped _ _ _ opens inner closes =>
    have opening := (Cursor.passes_char? opens).openings_eq
    have paid := ih.expression _ grouped _ inner
    have closing := (reaches_char closes).openings_le
    have enclosed := grouped.openingsAt_le (Nat.le_refl 8)
    rw [Expr.openingsAt_withSpan]
    rw [List.count_singleton_self] at opening
    omega
  | list opens elements =>
    have opening := (Cursor.passes_char? opens).reaches.openings_le
    have paid := items_pays ih.expression _ _ _ elements
    rw [Expr.openingsAt_list]
    simp only at paid ⊢
    omega
  | string content =>
    have paid := openings_quoted content
    rw [Expr.openingsAt, Expr.printAt, Literal.print, openings_quote]
    omega
  | number =>
    have paid := (Cursor.passes_number (cursor.skip comments)).openings_eq
    rw [Expr.openingsAt, Expr.printAt, Literal.print, openings]
    omega
  | word found reserved =>
    have word := (Cursor.passes_identifier? found).openings_eq
    rw [openingsAt_reserved? reserved]
    omega
  | reference found =>
    have word := (Cursor.passes_identifier? found).openings_eq
    rw [Expr.openingsAt, Expr.printAt, openings]
    simp only
    omega
  | @call _ _ behind _ _ found _ opens given =>
    have word := (Cursor.passes_identifier? found).openings_eq
    have blanks := (Cursor.reaches_skip comments behind).openings_le
    have opening := (Cursor.passes_char? opens).openings_eq
    have paid := items_pays ih.argument _ _ _ given
    rw [List.count_singleton_self] at opening
    rw [Expr.openingsAt_call, openings]
    simp only at paid ⊢
    omega

theorem argument_succ :
    Pays 0 (argumentWith comments (fuel + 1)) fun given => openings given.print := by
  intro cursor argument after read
  cases ArgumentStep.of_read read with
  | named labelled value =>
    obtain ⟨colon, label, sign⟩ := exists_readsName_label? labelled
    have word := label.openings_le
    have passed := sign.openings_le
    have paid := ih.expression _ _ _ value
    have separator : openings ": " = 0 := by decide
    simp only [Argument.print, openings_append, separator]
    rw [Expr.openingsAt] at paid
    omega
  | positional value => exact ih.expression cursor _ after value

end PaysWith

theorem paysWith (comments : Bool) (fuel : Nat) : PaysWith comments fuel := by
  induction fuel with
  | zero => exact .zero
  | succ fuel ih =>
    exact ⟨ih.expression_succ, ih.binary_succ, ih.join_succ, ih.unary_succ, ih.suffixes_succ,
      ih.primary_succ, ih.argument_succ⟩

end

end Reading

namespace Expr

theorem openings_print_le {comments : Bool} {text : String} {expr : Expr}
    (read : Expr.readWith comments text = .ok expr) : openings expr.print ≤ openings text := by
  obtain ⟨⟨value, after⟩, valueRead, read⟩ := Except.bind_eq_ok.1 (Except.mapError_eq_ok.1 read)
  simp only at read
  split at read
  next =>
    cases read
    have paid := (Reading.paysWith comments _).expression (Cursor.ofText text) expr after valueRead
    rw [openingsAt] at paid
    exact Nat.le_trans (Nat.le_add_right _ _) (Nat.le_trans paid (Nat.le_of_eq (Nat.zero_add _)))
  next => cases read

/--
Of all texts that read as an expression, the printed form has the fewest opening parentheses. So the
text without one pair of the printed parentheses, whichever pair it is, does not read as the
expression.
-/
theorem parentheses_are_needed (expr : Expr) :
    (expr.WellFormed → ∃ value, Expr.read expr.print = .ok value ∧ value.erase = expr.erase) ∧
    (∀ text value, Expr.read text = .ok value → value.erase = expr.erase →
      openings expr.print ≤ openings text) ∧
    ∀ before inside after, expr.print.toList = before ++ '(' :: inside ++ ')' :: after →
      ∀ value, Expr.read (String.ofList (before ++ inside ++ after)) = .ok value →
        value.erase ≠ expr.erase := by
  have fewest : ∀ text value, Expr.read text = .ok value → value.erase = expr.erase →
      openings expr.print ≤ openings text := by
    intro text value read same
    rw [← expr.print_erase, ← same, value.print_erase]
    exact openings_print_le read
  refine ⟨readWith_print true, fewest, fun before inside after printed value read same => ?_⟩
  have bound := fewest _ value read same
  rw [openings, openings, printed, String.toList_ofList] at bound
  simp only [List.count_append, List.count_cons_self, List.count_cons_of_ne (by decide : ')' ≠ '(')]
    at bound
  omega

end Expr

namespace Grouping

def name (text : String) : Expr := .reference ⟨text, .zero⟩ .zero

/-- A disjunction as an operand of a conjunction, and a comparison as that of a negation. -/
def expr : Expr :=
  .binary .and
    (.binary .or (name "a") (.unary .not (.binary .eq (name "b") (name "c") .zero) .zero) .zero)
    (name "d") .zero

end Grouping

theorem Grouping.parentheses_are_needed_expr :
    expr.print = "(a || !(b == c)) && d" ∧
      (∃ value, Expr.read "(a || !(b == c)) && d" = .ok value ∧ value.erase = expr.erase) ∧
      (∀ value, Expr.read "a || !(b == c) && d" = .ok value → value.erase ≠ expr.erase) ∧
      (∀ value, Expr.read "(a || !b == c) && d" = .ok value → value.erase ≠ expr.erase) ∧
      ∀ value, Expr.read "((a || !(b == c))) && d" = .ok value → value.erase = expr.erase →
        2 ≤ openings "((a || !(b == c))) && d" := by
  have printed : expr.print = "(a || !(b == c)) && d" := by decide
  have needed := Expr.parentheses_are_needed expr
  rw [printed] at needed
  obtain ⟨readsBack, fewest, removed⟩ := needed
  have plain : ∀ word ∈ ["a", "b", "c", "d"], IsPlainName word := by
    intro word among
    simp only [List.mem_cons, List.not_mem_nil, or_false] at among
    rcases among with rfl | rfl | rfl | rfl <;>
      exact ⟨.of_all (by decide) (by decide), by decide⟩
  refine ⟨printed, readsBack ?_, ?_, ?_, fun value read same => fewest _ value read same⟩
  · exact ⟨⟨plain "a" (by decide), plain "b" (by decide), plain "c" (by decide)⟩,
      plain "d" (by decide)⟩
  · exact removed [] "a || !(b == c)".toList " && d".toList (by decide)
  · exact removed "(a || !".toList "b == c".toList ") && d".toList (by decide)

end Schemata
