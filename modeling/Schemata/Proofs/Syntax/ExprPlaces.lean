import Schemata.Proofs.Syntax.ExprSteps
import Schemata.Proofs.Syntax.Outline
import Schemata.Proofs.Syntax.Passages

set_option autoImplicit false

namespace Schemata

namespace Cursor

variable {text : String} {cursor after : Cursor}

def IsIn (text : String) (cursor : Cursor) : Prop := (ofText text).Reaches cursor

theorem IsIn.ofText (text : String) : (Cursor.ofText text).IsIn text := .refl _

theorem IsIn.isBoundary (isIn : cursor.IsIn text) : IsBoundary text cursor.offset := by
  obtain ⟨before, passes⟩ := isIn
  exact ⟨before, cursor.rest, passes.rest, by rw [passes.offset, Cursor.ofText, Nat.zero_add]⟩

theorem IsIn.isWithin (isIn : cursor.IsIn text) (reaches : cursor.Reaches after) :
    Span.IsWithin text ⟨cursor.offset, after.offset⟩ where
  start := isIn.isBoundary
  stop := IsIn.isBoundary (Reaches.trans isIn reaches)
  ordered := reaches.offset_le

theorem Passes.shows {word : String} (isIn : cursor.IsIn text)
    (passes : cursor.Passes word.toList after) :
    Span.Shows text ⟨cursor.offset, after.offset⟩ word := by
  obtain ⟨before, origin⟩ := isIn
  have whole := origin.append passes
  have start : byteLength before = cursor.offset := by
    rw [origin.offset, ofText, Nat.zero_add]
  refine ⟨before, after.rest, whole.rest, start, ?_⟩
  rw [byteLength_append, start, passes.offset]

end Cursor

namespace Reading

open Cursor (Reaches Passes)

structure Covers (text : String) (cursor after : Cursor) (outlines : List Outline) : Prop where
  reaches : cursor.Reaches after
  row : Outline.IsRow text cursor.offset outlines after.offset

section

variable {text : String} {cursor middle after : Cursor} {outlines others : List Outline}

namespace Covers

theorem ofReaches (reaches : cursor.Reaches after) : Covers text cursor after [] :=
  ⟨reaches, reaches.offset_le⟩

theorem append (first : Covers text cursor middle outlines)
    (second : Covers text middle after others) : Covers text cursor after (outlines ++ others) :=
  ⟨first.reaches.trans second.reaches, first.row.append second.row⟩

theorem behind (reaches : cursor.Reaches middle) (covers : Covers text middle after outlines) :
    Covers text cursor after outlines :=
  (ofReaches reaches).append covers

theorem before (covers : Covers text cursor middle outlines) (reaches : middle.Reaches after) :
    Covers text cursor after outlines := by
  have whole := covers.append (ofReaches reaches)
  rwa [List.append_nil] at whole

theorem isIn (covers : Covers text cursor after outlines) (isIn : cursor.IsIn text) :
    after.IsIn text :=
  Reaches.trans isIn covers.reaches

theorem node {groups : List (List Outline)} (isIn : cursor.IsIn text)
    (reaches : cursor.Reaches after)
    (rows : ∀ group ∈ groups, Outline.IsRow text cursor.offset group after.offset) :
    Covers text cursor after [.node ⟨cursor.offset, after.offset⟩ none groups] :=
  ⟨reaches, .single (.ofRows (isIn.isWithin reaches) nofun rows) (Nat.le_refl _) (Nat.le_refl _)⟩

theorem whole (isIn : cursor.IsIn text) (covers : Covers text cursor after outlines) :
    Covers text cursor after [.node ⟨cursor.offset, after.offset⟩ none [outlines]] :=
  node isIn covers.reaches (List.forall_mem_singleton.2 covers.row)

theorem leaf (isIn : cursor.IsIn text) (reaches : cursor.Reaches after) :
    Covers text cursor after [.node ⟨cursor.offset, after.offset⟩ none []] :=
  node isIn reaches nofun

end Covers

/-- An expression takes the place of the parentheses around it. -/
theorem Covers.withSpan {expr : Expr} (isIn : cursor.IsIn text)
    (covers : Covers text cursor after [expr.outline]) :
    Covers text cursor after [(expr.withSpan ⟨cursor.offset, after.offset⟩).outline] := by
  obtain ⟨groups, own, widened⟩ := expr.exists_outline
  obtain ⟨start, placed, stop⟩ := covers.row
  rw [own] at start placed stop
  rw [widened]
  have within := isIn.isWithin covers.reaches
  exact ⟨covers.reaches,
    .single (placed.widen within ⟨start, stop⟩) (Nat.le_refl _) (Nat.le_refl _)⟩

theorem ReadsName.covers {name : Ident} {start : Cursor} (reads : ReadsName cursor name after start)
    (isIn : cursor.IsIn text) : Covers text cursor after [name.outline] := by
  have startIn : start.IsIn text := Reaches.trans isIn reads.reaches
  refine .behind reads.reaches ⟨reads.passes.reaches, ?_⟩
  rw [Ident.outline, reads.span]
  refine .single (.ofRows (startIn.isWithin reads.passes.reaches) ?_ (List.forall_mem_nil _))
    (Nat.le_refl _) (Nat.le_refl _)
  rintro _ ⟨⟩
  exact reads.passes.shows startIn

end

def Places {α : Type} (text : String) (step : Cursor → Reading (α × Cursor))
    (outlines : α → List Outline) : Prop :=
  ∀ cursor value after, cursor.IsIn text → step cursor = .ok (value, after) →
    Covers text cursor after (outlines value)

variable {text : String}

theorem itemsWith_places {α : Type} {comments : Bool} {close : Char} {what : Expected}
    {item : Cursor → Reading (α × Cursor)} {outlines : α → List Outline}
    (each : Places text item outlines) (fuel : Nat) :
    Places text (itemsWith comments close what item fuel)
      fun values => values.flatMap outlines := by
  induction fuel with
  | zero =>
    intro cursor values after _ read
    cases read
  | succ fuel ih =>
    intro cursor values after isIn read
    have skipped := Cursor.reaches_skip comments cursor
    have startIn : (cursor.skip comments).IsIn text := Reaches.trans isIn skipped
    cases ItemsStep.of_read read with
    | none closed => exact .ofReaches (skipped.trans (Cursor.passes_char? closed).reaches)
    | last head closed =>
      have closes := (Cursor.reaches_skip comments _).trans (Cursor.passes_char? closed).reaches
      simp only [List.flatMap_cons, List.flatMap_nil, List.append_nil]
      exact ((each _ _ _ startIn head).behind skipped).before closes
    | more head comma tail =>
      have separates := (Cursor.reaches_skip comments _).trans (Cursor.passes_char? comma).reaches
      have first := ((each _ _ _ startIn head).behind skipped).before separates
      exact first.append (ih _ _ _ (first.isIn isIn) tail)

theorem items_places {α : Type} {comments : Bool} {close : Char} {what : Expected}
    {item : Cursor → Reading (α × Cursor)} {outlines : α → List Outline}
    (each : Places text item outlines) :
    Places text (items comments close what item) fun values => values.flatMap outlines :=
  fun cursor => itemsWith_places each (cursor.rest.length + 1) cursor

structure PlacesWith (text : String) (comments : Bool) (fuel : Nat) : Prop where
  expression : Places text (expressionWith comments fuel) fun expr => [expr.outline]
  binary : ∀ levels, Places text (binaryWith comments fuel levels) fun expr => [expr.outline]
  join : ∀ ops tighter left start cursor expr after, start.IsIn text →
    Covers text start cursor [left.outline] →
    joinWith comments fuel ops tighter left cursor = .ok (expr, after) →
    Covers text start after [expr.outline]
  unary : Places text (unaryWith comments fuel) fun expr => [expr.outline]
  suffixes : ∀ object start cursor expr after, start.IsIn text →
    Covers text start cursor [object.outline] →
    suffixesWith comments fuel start.offset object cursor = .ok (expr, after) →
    Covers text start after [expr.outline]
  primary : Places text (primaryWith comments fuel) fun expr => [expr.outline]
  argument : Places text (argumentWith comments fuel) Argument.outlines

section

variable {comments : Bool} {fuel : Nat}

theorem PlacesWith.zero : PlacesWith text comments 0 where
  expression _ _ _ _ read := nomatch read
  binary _ _ _ _ _ read := nomatch read
  join _ _ _ _ _ _ _ _ _ read := nomatch read
  unary _ _ _ _ read := nomatch read
  suffixes _ _ _ _ _ _ _ read := nomatch read
  primary _ _ _ _ read := nomatch read
  argument _ _ _ _ read := nomatch read

namespace PlacesWith

variable (ih : PlacesWith text comments fuel)

include ih

theorem expression_succ :
    Places text (expressionWith comments (fuel + 1)) fun expr => [expr.outline] := by
  intro cursor expr after isIn read
  rw [expressionWith] at read
  exact ih.binary _ cursor expr after isIn read

theorem binary_succ (levels : List (List BinaryOp)) :
    Places text (binaryWith comments (fuel + 1) levels) fun expr => [expr.outline] := by
  intro cursor expr after isIn read
  cases levels with
  | nil =>
    rw [binaryWith] at read
    exact ih.unary cursor expr after isIn read
  | cons ops tighter =>
    rw [binaryWith] at read
    obtain ⟨⟨left, next⟩, leftRead, read⟩ := Except.bind_eq_ok.1 read
    have covers := ih.binary tighter cursor left next isIn leftRead
    exact ih.join ops tighter left cursor next expr after isIn covers read

theorem join_succ (ops : List BinaryOp) (tighter : List (List BinaryOp)) (left : Expr)
    (start cursor : Cursor) (expr : Expr) (after : Cursor) (isIn : start.IsIn text)
    (covers : Covers text start cursor [left.outline])
    (read : joinWith comments (fuel + 1) ops tighter left cursor = .ok (expr, after)) :
    Covers text start after [expr.outline] := by
  cases JoinStep.of_read read with
  | done => exact covers
  | more operator operand rest =>
    have sign := (Cursor.reaches_skip comments cursor).trans (passes_operator? operator).reaches
    have before := covers.before sign
    have both := before.append (ih.binary tighter _ _ _ (before.isIn isIn) operand)
    refine ih.join ops tighter _ start _ expr after isIn ⟨both.reaches, ?_⟩ rest
    rw [Expr.outline, ← left.span_outline, ← Expr.span_outline]
    exact both.row.cover

theorem unary_succ : Places text (unaryWith comments (fuel + 1)) fun expr => [expr.outline] := by
  intro cursor expr after isIn read
  have skipped := Cursor.reaches_skip comments cursor
  have startIn : (cursor.skip comments).IsIn text := Reaches.trans isIn skipped
  cases UnaryStep.of_read read with
  | operator sign inner =>
    have signed := reaches_unaryOp? sign
    have covers := ih.unary _ _ _ (Reaches.trans startIn signed) inner
    exact ((covers.behind signed).whole startIn).behind skipped
  | suffixed primary suffixes =>
    have covers := ih.primary _ _ _ startIn primary
    exact (ih.suffixes _ _ _ expr after startIn covers suffixes).behind skipped

theorem suffixes_succ (object : Expr) (start cursor : Cursor) (expr : Expr) (after : Cursor)
    (isIn : start.IsIn text) (covers : Covers text start cursor [object.outline])
    (read : suffixesWith comments (fuel + 1) start.offset object cursor = .ok (expr, after)) :
    Covers text start after [expr.outline] := by
  have skipped := Cursor.reaches_skip comments cursor
  cases SuffixStep.of_read read with
  | done => exact covers
  | access point member rest =>
    have pointed := covers.before (skipped.trans (Cursor.passes_char? point).reaches)
    have named := pointed.append ((readsName_ident member).covers (pointed.isIn isIn))
    refine ih.suffixes _ start _ expr after isIn ?_ rest
    exact named.whole isIn
  | quantified opens inner closes rest =>
    have opened := covers.before (skipped.trans (reaches_quantifier? opens))
    have both := opened.append (ih.expression _ _ _ (opened.isIn isIn) inner)
    refine ih.suffixes _ start _ expr after isIn ?_ rest
    exact (both.before (reaches_char closes)).whole isIn

theorem primary_succ :
    Places text (primaryWith comments (fuel + 1)) fun expr => [expr.outline] := by
  intro cursor expr after isIn read
  have skipped := Cursor.reaches_skip comments cursor
  have startIn : (cursor.skip comments).IsIn text := Reaches.trans isIn skipped
  refine .behind skipped ?_
  cases PrimaryStep.of_read read with
  | group opens inner closes =>
    have opened := (Cursor.passes_char? opens).reaches
    have covers := ih.expression _ _ _ (Reaches.trans startIn opened) inner
    exact ((covers.behind opened).before (reaches_char closes)).withSpan startIn
  | list opens elements =>
    have opened := (Cursor.passes_char? opens).reaches
    have covers := items_places ih.expression _ _ _ (Reaches.trans startIn opened) elements
    simp only [← List.map_eq_flatMap, ← Expr.outlineAll_eq_map] at covers
    exact (covers.behind opened).whole startIn
  | string content => exact .leaf startIn (reaches_quoted content)
  | number => exact .leaf startIn (Cursor.passes_number _).reaches
  | word found reserved =>
    have word := Cursor.passes_identifier? found
    unfold reserved? at reserved
    split at reserved <;> cases reserved <;> exact .leaf startIn word.reaches
  | reference found =>
    exact ((readsName_identifier? found).covers startIn).whole startIn
  | call found _ opens given =>
    have opened := (Cursor.reaches_skip comments _).trans (Cursor.passes_char? opens).reaches
    have named := ((readsName_identifier? found).covers startIn).before opened
    have covers := items_places ih.argument _ _ _ (named.isIn startIn) given
    simp only [← Argument.outlinesOfAll_eq_flatMap] at covers
    exact (named.append covers).whole startIn

theorem argument_succ : Places text (argumentWith comments (fuel + 1)) Argument.outlines := by
  intro cursor argument after isIn read
  cases ArgumentStep.of_read read with
  | named labelled value =>
    obtain ⟨colon, label, sign⟩ := exists_readsName_label? labelled
    have named := (label.covers isIn).before sign
    exact named.append (ih.expression _ _ _ (named.isIn isIn) value)
  | positional value => exact ih.expression cursor _ _ isIn value

end PlacesWith

theorem placesWith (text : String) (comments : Bool) (fuel : Nat) :
    PlacesWith text comments fuel := by
  induction fuel with
  | zero => exact .zero
  | succ fuel ih =>
    exact ⟨ih.expression_succ, ih.binary_succ, ih.join_succ, ih.unary_succ, ih.suffixes_succ,
      ih.primary_succ, ih.argument_succ⟩

theorem expression_places (comments : Bool) :
    Places text (expression comments) fun expr => [expr.outline] :=
  fun cursor => (placesWith text comments (fuelFor cursor)).expression cursor

theorem arguments_places (comments : Bool) :
    Places text (arguments comments) fun values => values.flatMap Argument.outlines :=
  fun cursor => items_places (placesWith text comments (fuelFor cursor)).argument cursor

end

end Reading

end Schemata
