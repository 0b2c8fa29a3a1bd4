import Schemata.Proofs.Result
import Schemata.Syntax.ExprReader

/-!
# Steps of reading expressions

What a step has read once it succeeds: which of its ways it took, and what the smaller steps read
on that way. Properties of all trees that are read follow by induction on the fuel, with one case
for each way.
-/

set_option autoImplicit false

namespace Schemata.Reading

section

variable {α : Type} {comments : Bool} {fuel : Nat} {cursor after : Cursor}

inductive ItemsStep (comments : Bool) (close : Char) (what : Expected)
    (item : Cursor → Reading (α × Cursor)) (fuel : Nat) (start : Cursor) :
    List α → Cursor → Prop
  | none {after : Cursor} (closed : start.char? close = some after) :
      ItemsStep comments close what item fuel start [] after
  | last {first : α} {next after : Cursor} (head : item start = .ok (first, next))
      (closed : (next.skip comments).char? close = some after) :
      ItemsStep comments close what item fuel start [first] after
  | more {first : α} {others : List α} {next behind after : Cursor}
      (head : item start = .ok (first, next))
      (comma : (next.skip comments).char? ',' = some behind)
      (tail : itemsWith comments close what item fuel behind = .ok (others, after)) :
      ItemsStep comments close what item fuel start (first :: others) after

theorem ItemsStep.of_read {close : Char} {what : Expected}
    {item : Cursor → Reading (α × Cursor)} {values : List α}
    (read : itemsWith comments close what item (fuel + 1) cursor = .ok (values, after)) :
    ItemsStep comments close what item fuel (cursor.skip comments) values after := by
  simp only [itemsWith] at read
  split at read
  next closed =>
    cases read
    exact .none closed
  next =>
    obtain ⟨⟨first, next⟩, head, read⟩ := Except.bind_eq_ok.1 read
    simp only at read
    split at read
    next comma =>
      obtain ⟨⟨others, last⟩, tail, read⟩ := Except.bind_eq_ok.1 read
      cases read
      exact .more head comma tail
    next =>
      split at read
      next closed =>
        cases read
        exact .last head closed
      next => cases read

inductive JoinStep (comments : Bool) (fuel : Nat) (ops : List BinaryOp)
    (tighter : List (List BinaryOp)) (left : Expr) (cursor : Cursor) : Expr → Cursor → Prop
  | done : JoinStep comments fuel ops tighter left cursor left cursor
  | more {op : BinaryOp} {right expr : Expr} {behind next after : Cursor}
      (operator : operator? (cursor.skip comments) ops = some (op, behind))
      (operand : binaryWith comments fuel tighter behind = .ok (right, next))
      (rest : joinWith comments fuel ops tighter
        (.binary op left right (left.span.cover right.span)) next = .ok (expr, after)) :
      JoinStep comments fuel ops tighter left cursor expr after

theorem JoinStep.of_read {ops : List BinaryOp} {tighter : List (List BinaryOp)} {left expr : Expr}
    (read : joinWith comments (fuel + 1) ops tighter left cursor = .ok (expr, after)) :
    JoinStep comments fuel ops tighter left cursor expr after := by
  rw [joinWith] at read
  split at read
  next =>
    cases read
    exact .done
  next operator =>
    obtain ⟨⟨right, next⟩, operand, rest⟩ := Except.bind_eq_ok.1 read
    exact .more operator operand rest

inductive UnaryStep (comments : Bool) (fuel : Nat) (start : Cursor) : Expr → Cursor → Prop
  | operator {op : UnaryOp} {operand : Expr} {behind after : Cursor}
      (sign : unaryOp? start = some (op, behind))
      (inner : unaryWith comments fuel behind = .ok (operand, after)) :
      UnaryStep comments fuel start (.unary op operand ⟨start.offset, after.offset⟩) after
  | suffixed {object expr : Expr} {next after : Cursor}
      (primary : primaryWith comments fuel start = .ok (object, next))
      (suffixes : suffixesWith comments fuel start.offset object next = .ok (expr, after)) :
      UnaryStep comments fuel start expr after

theorem UnaryStep.of_read {expr : Expr}
    (read : unaryWith comments (fuel + 1) cursor = .ok (expr, after)) :
    UnaryStep comments fuel (cursor.skip comments) expr after := by
  rw [unaryWith] at read
  simp only at read
  split at read
  next sign =>
    obtain ⟨⟨operand, next⟩, inner, read⟩ := Except.bind_eq_ok.1 read
    cases read
    exact .operator sign inner
  next =>
    obtain ⟨⟨object, next⟩, primary, suffixes⟩ := Except.bind_eq_ok.1 read
    exact .suffixed primary suffixes

inductive SuffixStep (comments : Bool) (fuel start : Nat) (object : Expr) (cursor : Cursor) :
    Expr → Cursor → Prop
  | done : SuffixStep comments fuel start object cursor object cursor
  | access {name : Ident} {expr : Expr} {behind next after : Cursor}
      (point : (cursor.skip comments).char? '.' = some behind)
      (member : ident comments .memberName behind = .ok (name, next))
      (rest : suffixesWith comments fuel start (.access object name ⟨start, next.offset⟩) next =
        .ok (expr, after)) :
      SuffixStep comments fuel start object cursor expr after
  | quantified {quantifier : Quantifier} {condition expr : Expr}
      {behind next closed after : Cursor}
      (opens : quantifier? comments (cursor.skip comments) = some (quantifier, behind))
      (inner : expressionWith comments fuel behind = .ok (condition, next))
      (closes : char comments ']' .conditionEnd next = .ok closed)
      (rest : suffixesWith comments fuel start
        (.quantified object quantifier condition ⟨start, closed.offset⟩) closed =
          .ok (expr, after)) :
      SuffixStep comments fuel start object cursor expr after

theorem SuffixStep.of_read {start : Nat} {object expr : Expr}
    (read : suffixesWith comments (fuel + 1) start object cursor = .ok (expr, after)) :
    SuffixStep comments fuel start object cursor expr after := by
  rw [suffixesWith] at read
  simp only at read
  split at read
  next point =>
    obtain ⟨⟨name, next⟩, member, rest⟩ := Except.bind_eq_ok.1 read
    exact .access point member rest
  next =>
    split at read
    next opens =>
      obtain ⟨⟨condition, next⟩, inner, read⟩ := Except.bind_eq_ok.1 read
      obtain ⟨closed, closes, rest⟩ := Except.bind_eq_ok.1 read
      exact .quantified opens inner closes rest
    next =>
      cases read
      exact .done

inductive PrimaryStep (comments : Bool) (fuel : Nat) (start : Cursor) : Expr → Cursor → Prop
  | group {expr : Expr} {behind next after : Cursor} (opens : start.char? '(' = some behind)
      (inner : expressionWith comments fuel behind = .ok (expr, next))
      (closes : char comments ')' .closingParenthesis next = .ok after) :
      PrimaryStep comments fuel start (expr.withSpan ⟨start.offset, after.offset⟩) after
  | list {values : List Expr} {behind after : Cursor} (opens : start.char? '[' = some behind)
      (elements : items comments ']' .commaOrBracket (expressionWith comments fuel) behind =
        .ok (values, after)) :
      PrimaryStep comments fuel start (.list values ⟨start.offset, after.offset⟩) after
  | string {text : String} {after : Cursor} (content : quoted start = .ok (text, after)) :
      PrimaryStep comments fuel start (.literal (.string text) ⟨start.offset, after.offset⟩) after
  | number (digit : start.rest.head?.any Char.isDigit) :
      PrimaryStep comments fuel start
        (.literal (.number start.number.1) ⟨start.offset, start.number.2.offset⟩) start.number.2
  | word {name : String} {expr : Expr} {after : Cursor}
      (found : start.identifier? = some (name, after))
      (reserved : reserved? name ⟨start.offset, after.offset⟩ = some expr) :
      PrimaryStep comments fuel start expr after
  | reference {name : String} {after : Cursor} (found : start.identifier? = some (name, after))
      (unreserved : reserved? name ⟨start.offset, after.offset⟩ = none) :
      PrimaryStep comments fuel start
        (.reference ⟨name, ⟨start.offset, after.offset⟩⟩ ⟨start.offset, after.offset⟩) after
  | call {name : String} {values : List Argument} {behind inside after : Cursor}
      (found : start.identifier? = some (name, behind))
      (unreserved : reserved? name ⟨start.offset, behind.offset⟩ = none)
      (opens : (behind.skip comments).char? '(' = some inside)
      (given : items comments ')' .commaOrParenthesis (argumentWith comments fuel) inside =
        .ok (values, after)) :
      PrimaryStep comments fuel start
        (.call ⟨name, ⟨start.offset, behind.offset⟩⟩ values ⟨start.offset, after.offset⟩) after

theorem PrimaryStep.of_read {expr : Expr}
    (read : primaryWith comments (fuel + 1) cursor = .ok (expr, after)) :
    PrimaryStep comments fuel (cursor.skip comments) expr after := by
  rw [primaryWith] at read
  simp only at read
  split at read
  next opens =>
    obtain ⟨⟨inner, next⟩, innerRead, read⟩ := Except.bind_eq_ok.1 read
    obtain ⟨closed, closes, read⟩ := Except.bind_eq_ok.1 read
    cases read
    exact .group opens innerRead closes
  split at read
  next opens =>
    obtain ⟨⟨values, next⟩, valuesRead, read⟩ := Except.bind_eq_ok.1 read
    cases read
    exact .list opens valuesRead
  split at read
  next =>
    obtain ⟨⟨text, next⟩, textRead, read⟩ := Except.bind_eq_ok.1 read
    cases read
    exact .string textRead
  split at read
  next digit =>
    cases read
    exact .number digit
  split at read
  next => cases read
  next found =>
    -- What starts as a name is a reserved word, a reference or a call.
    split at read
    next reserved =>
      cases read
      exact .word found reserved
    next unreserved =>
      split at read
      next =>
        cases read
        exact .reference found unreserved
      next opens =>
        obtain ⟨⟨values, next⟩, valuesRead, read⟩ := Except.bind_eq_ok.1 read
        cases read
        exact .call found unreserved opens valuesRead

inductive ArgumentStep (comments : Bool) (fuel : Nat) (cursor : Cursor) :
    Argument → Cursor → Prop
  | named {name : Ident} {expr : Expr} {behind after : Cursor}
      (labelled : label? comments cursor = some (name, behind))
      (value : expressionWith comments fuel behind = .ok (expr, after)) :
      ArgumentStep comments fuel cursor (.named name expr) after
  | positional {expr : Expr} {after : Cursor}
      (value : expressionWith comments fuel cursor = .ok (expr, after)) :
      ArgumentStep comments fuel cursor (.positional expr) after

theorem ArgumentStep.of_read {argument : Argument}
    (read : argumentWith comments (fuel + 1) cursor = .ok (argument, after)) :
    ArgumentStep comments fuel cursor argument after := by
  rw [argumentWith] at read
  split at read
  next labelled =>
    obtain ⟨⟨value, next⟩, valueRead, read⟩ := Except.bind_eq_ok.1 read
    cases read
    exact .named labelled valueRead
  next =>
    obtain ⟨⟨value, next⟩, valueRead, read⟩ := Except.bind_eq_ok.1 read
    cases read
    exact .positional valueRead

end

end Schemata.Reading
