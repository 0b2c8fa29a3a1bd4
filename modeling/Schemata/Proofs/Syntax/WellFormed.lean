import Schemata.Proofs.Result
import Schemata.Proofs.Syntax.ExprSteps
import Schemata.Proofs.Syntax.Words
import Schemata.Syntax.DocumentReader

set_option autoImplicit false

namespace Schemata

structure IsPlainName (name : String) : Prop where
  isName : IsName name
  notReserved : name ∉ ["true", "false", "null", "this"]

theorem IsPlainName.reserved?_eq_none {name : String} (isPlain : IsPlainName name) (span : Span) :
    Reading.reserved? name span = none := by
  have differ := isPlain.notReserved
  unfold Reading.reserved?
  split <;> simp_all

theorem isPlainName_of_reserved? {name : String} {span : Span} (isName : IsName name)
    (unreserved : Reading.reserved? name span = none) : IsPlainName name := by
  refine ⟨isName, ?_⟩
  intro found
  simp only [List.mem_cons, List.not_mem_nil, or_false] at found
  rcases found with rfl | rfl | rfl | rfl <;> cases unreserved

def Literal.WellFormed : Literal → Prop
  | .number text => IsNumber text
  | _ => True

mutual

def Expr.WellFormed : Expr → Prop
  | .literal value _ => value.WellFormed
  | .this _ => True
  | .reference name _ => IsPlainName name.name
  | .access object member _ => object.WellFormed ∧ IsName member.name
  | .unary _ operand _ => operand.WellFormed
  | .binary _ left right _ => left.WellFormed ∧ right.WellFormed
  | .call function arguments _ => IsPlainName function.name ∧ Argument.AllWellFormed arguments
  | .list items _ => Expr.AllWellFormed items
  | .quantified collection _ condition _ => collection.WellFormed ∧ condition.WellFormed

def Argument.WellFormed : Argument → Prop
  | .positional value => value.WellFormed
  | .named name value => IsName name.name ∧ value.WellFormed

def Expr.AllWellFormed : List Expr → Prop
  | [] => True
  | item :: rest => item.WellFormed ∧ Expr.AllWellFormed rest

def Argument.AllWellFormed : List Argument → Prop
  | [] => True
  | argument :: rest => argument.WellFormed ∧ Argument.AllWellFormed rest

end

theorem Expr.allWellFormed_iff {items : List Expr} :
    Expr.AllWellFormed items ↔ ∀ item ∈ items, item.WellFormed := by
  induction items with
  | nil => simp [Expr.AllWellFormed]
  | cons item rest ih => simp [Expr.AllWellFormed, ih]

theorem Argument.allWellFormed_iff {arguments : List Argument} :
    Argument.AllWellFormed arguments ↔ ∀ argument ∈ arguments, argument.WellFormed := by
  induction arguments with
  | nil => simp [Argument.AllWellFormed]
  | cons argument rest ih => simp [Argument.AllWellFormed, ih]

theorem Argument.WellFormed.value {argument : Argument} (wellFormed : argument.WellFormed) :
    argument.value.WellFormed := by
  cases argument with
  | positional value => exact wellFormed
  | named name value => exact wellFormed.2

@[simp] theorem Expr.wellFormed_withSpan {span : Span} {expr : Expr} :
    (expr.withSpan span).WellFormed ↔ expr.WellFormed := by
  cases expr <;> simp only [withSpan, WellFormed]

namespace Reading

def Yields {α : Type} (step : Cursor → Reading (α × Cursor)) (property : α → Prop) : Prop :=
  ∀ cursor value after, step cursor = .ok (value, after) → property value

theorem isName_of_ident {comments : Bool} {what : Expected} {cursor after : Cursor}
    {name : Ident} (read : ident comments what cursor = .ok (name, after)) : IsName name.name := by
  unfold ident orMiss at read
  split at read
  next found =>
    cases read
    exact Cursor.isName_of_ident? found
  next => cases read

theorem itemsWith_yields {α : Type} {comments : Bool} {close : Char} {what : Expected}
    {item : Cursor → Reading (α × Cursor)} {property : α → Prop} (each : Yields item property)
    (fuel : Nat) : Yields (itemsWith comments close what item fuel)
      fun values => ∀ value ∈ values, property value := by
  induction fuel with
  | zero =>
    intro cursor values after read
    cases read
  | succ fuel ih =>
    intro cursor values after read
    cases ItemsStep.of_read read with
    | none => exact fun _ found => nomatch found
    | last head => exact List.forall_mem_singleton.2 (each _ _ _ head)
    | more head _ tail => exact List.forall_mem_cons.2 ⟨each _ _ _ head, ih _ _ _ tail⟩

theorem items_yields {α : Type} {comments : Bool} {close : Char} {what : Expected}
    {item : Cursor → Reading (α × Cursor)} {property : α → Prop} (each : Yields item property) :
    Yields (items comments close what item) fun values => ∀ value ∈ values, property value :=
  fun cursor => itemsWith_yields each (cursor.rest.length + 1) cursor

structure WellFormedWith (comments : Bool) (fuel : Nat) : Prop where
  expression : Yields (expressionWith comments fuel) Expr.WellFormed
  binary : ∀ levels, Yields (binaryWith comments fuel levels) Expr.WellFormed
  join : ∀ ops tighter left, left.WellFormed →
    Yields (joinWith comments fuel ops tighter left) Expr.WellFormed
  unary : Yields (unaryWith comments fuel) Expr.WellFormed
  suffixes : ∀ start object, object.WellFormed →
    Yields (suffixesWith comments fuel start object) Expr.WellFormed
  primary : Yields (primaryWith comments fuel) Expr.WellFormed
  argument : Yields (argumentWith comments fuel) Argument.WellFormed

section

variable {comments : Bool} {fuel : Nat}

theorem WellFormedWith.zero : WellFormedWith comments 0 where
  expression _ _ _ read := nomatch read
  binary _ _ _ _ read := nomatch read
  join _ _ _ _ _ _ _ read := nomatch read
  unary _ _ _ read := nomatch read
  suffixes _ _ _ _ _ _ read := nomatch read
  primary _ _ _ read := nomatch read
  argument _ _ _ read := nomatch read

namespace WellFormedWith

variable (ih : WellFormedWith comments fuel)

include ih

theorem expression_succ : Yields (expressionWith comments (fuel + 1)) Expr.WellFormed := by
  intro cursor expr after read
  rw [expressionWith] at read
  exact ih.binary _ cursor expr after read

theorem binary_succ (levels : List (List BinaryOp)) :
    Yields (binaryWith comments (fuel + 1) levels) Expr.WellFormed := by
  intro cursor expr after read
  cases levels with
  | nil =>
    rw [binaryWith] at read
    exact ih.unary cursor expr after read
  | cons ops tighter =>
    rw [binaryWith] at read
    obtain ⟨⟨left, next⟩, leftRead, read⟩ := Except.bind_eq_ok.1 read
    exact ih.join ops tighter left (ih.binary tighter cursor left next leftRead) next expr after
      read

theorem join_succ (ops : List BinaryOp) (tighter : List (List BinaryOp)) (left : Expr)
    (wellFormed : left.WellFormed) :
    Yields (joinWith comments (fuel + 1) ops tighter left) Expr.WellFormed := by
  intro cursor expr after read
  cases JoinStep.of_read read with
  | done => exact wellFormed
  | more _ operand rest =>
    have right := ih.binary tighter _ _ _ operand
    refine ih.join ops tighter _ ?_ _ expr after rest
    exact ⟨wellFormed, right⟩

theorem unary_succ : Yields (unaryWith comments (fuel + 1)) Expr.WellFormed := by
  intro cursor expr after read
  cases UnaryStep.of_read read with
  | operator _ inner => simpa only [Expr.WellFormed] using ih.unary _ _ _ inner
  | suffixed primary suffixes =>
    exact ih.suffixes _ _ (ih.primary _ _ _ primary) _ expr after suffixes

theorem suffixes_succ (start : Nat) (object : Expr) (wellFormed : object.WellFormed) :
    Yields (suffixesWith comments (fuel + 1) start object) Expr.WellFormed := by
  intro cursor expr after read
  cases SuffixStep.of_read read with
  | done => exact wellFormed
  | access _ member rest =>
    refine ih.suffixes start _ ?_ _ expr after rest
    exact ⟨wellFormed, isName_of_ident member⟩
  | quantified _ inner _ rest =>
    have condition := ih.expression _ _ _ inner
    refine ih.suffixes start _ ?_ _ expr after rest
    exact ⟨wellFormed, condition⟩

theorem primary_succ : Yields (primaryWith comments (fuel + 1)) Expr.WellFormed := by
  intro cursor expr after read
  cases PrimaryStep.of_read read with
  | group _ inner => exact Expr.wellFormed_withSpan.2 (ih.expression _ _ _ inner)
  | list _ elements => exact Expr.allWellFormed_iff.2 (items_yields ih.expression _ _ _ elements)
  | string => trivial
  | number digit => exact Cursor.isNumber_number digit
  | word _ reserved =>
    unfold reserved? at reserved
    split at reserved <;> cases reserved <;> trivial
  | reference found unreserved =>
    exact isPlainName_of_reserved? (Cursor.isName_of_identifier? found) unreserved
  | call found unreserved _ given =>
    exact ⟨isPlainName_of_reserved? (Cursor.isName_of_identifier? found) unreserved,
      Argument.allWellFormed_iff.2 (items_yields ih.argument _ _ _ given)⟩

theorem argument_succ : Yields (argumentWith comments (fuel + 1)) Argument.WellFormed := by
  intro cursor argument after read
  cases ArgumentStep.of_read read with
  | named labelled value =>
    refine ⟨?_, ih.expression _ _ _ value⟩
    unfold label? at labelled
    split at labelled
    next => cases labelled
    next found =>
      obtain ⟨_, _, same⟩ := Option.map_eq_some_iff.1 labelled
      cases same
      exact Cursor.isName_of_ident? found
  | positional value => exact ih.expression _ _ _ value

end WellFormedWith

theorem wellFormedWith (comments : Bool) (fuel : Nat) : WellFormedWith comments fuel := by
  -- The steps call each other with less fuel, so that all of them are shown at once.
  induction fuel with
  | zero => exact .zero
  | succ fuel ih =>
    exact ⟨ih.expression_succ, ih.binary_succ, ih.join_succ, ih.unary_succ, ih.suffixes_succ,
      ih.primary_succ, ih.argument_succ⟩

theorem expression_yields (comments : Bool) : Yields (expression comments) Expr.WellFormed :=
  fun cursor => (wellFormedWith comments (fuelFor cursor)).expression cursor

theorem arguments_yields (comments : Bool) :
    Yields (arguments comments) fun values => ∀ value ∈ values, value.WellFormed :=
  fun cursor => items_yields (wellFormedWith comments (fuelFor cursor)).argument cursor

end

end Reading

theorem Expr.wellFormed_of_readWith {comments : Bool} {text : String} {expr : Expr}
    (read : Expr.readWith comments text = .ok expr) : expr.WellFormed := by
  obtain ⟨⟨value, after⟩, valueRead, read⟩ := Except.bind_eq_ok.1 (Except.mapError_eq_ok.1 read)
  simp only at read
  split at read
  next =>
    cases read
    exact Reading.expression_yields comments _ expr after valueRead
  next => cases read

end Schemata
