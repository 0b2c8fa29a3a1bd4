import Schemata.Syntax.Ident
import Schemata.Syntax.Operator

set_option autoImplicit false

namespace Schemata

inductive Literal
  | string (text : String)
  /-- The digits stay as they are written. -/
  | number (text : String)
  | boolean (value : Bool)
  | null
deriving Repr, DecidableEq, Inhabited

mutual

inductive Expr
  | literal (value : Literal) (span : Span)
  | this (span : Span)
  | reference (name : Ident) (span : Span)
  | access (object : Expr) (member : Ident) (span : Span)
  | unary (op : UnaryOp) (operand : Expr) (span : Span)
  | binary (op : BinaryOp) (left right : Expr) (span : Span)
  | call (function : Ident) (arguments : List Argument) (span : Span)
  | list (items : List Expr) (span : Span)
  | quantified (collection : Expr) (quantifier : Quantifier) (condition : Expr) (span : Span)

inductive Argument
  | positional (value : Expr)
  | named (name : Ident) (value : Expr)

end

deriving instance Repr for Expr
deriving instance Repr for Argument

instance : Inhabited Expr := ⟨.this Span.zero⟩
instance : Inhabited Argument := ⟨.positional default⟩

namespace Argument

def value : Argument → Expr
  | .positional value | .named _ value => value

def name? : Argument → Option Ident
  | .positional _ => none
  | .named name _ => some name

end Argument

namespace Expr

def span : Expr → Span
  | .literal _ span | .this span | .reference _ span | .access _ _ span | .unary _ _ span
  | .binary _ _ _ span | .call _ _ span | .list _ span | .quantified _ _ _ span => span

def withSpan (span : Span) : Expr → Expr
  | .literal value _ => .literal value span
  | .this _ => .this span
  | .reference name _ => .reference name span
  | .access object member _ => .access object member span
  | .unary op operand _ => .unary op operand span
  | .binary op left right _ => .binary op left right span
  | .call function arguments _ => .call function arguments span
  | .list items _ => .list items span
  | .quantified collection quantifier condition _ =>
      .quantified collection quantifier condition span

def precedence : Expr → Nat
  | .binary op _ _ _ => op.precedence
  | .unary _ _ _ => 7
  | _ => 8

def string? : Expr → Option String
  | .literal (.string text) _ => some text
  | _ => none

def reference? : Expr → Option Ident
  | .reference name _ => some name
  | _ => none

def isNull : Expr → Bool
  | .literal .null _ => true
  | _ => false

end Expr

def Argument.span : Argument → Span
  | .positional value => value.span
  | .named name value => name.span.cover value.span

mutual

def Expr.erase : Expr → Expr
  | .literal value _ => .literal value Span.zero
  | .this _ => .this Span.zero
  | .reference name _ => .reference name.erase Span.zero
  | .access object member _ => .access object.erase member.erase Span.zero
  | .unary op operand _ => .unary op operand.erase Span.zero
  | .binary op left right _ => .binary op left.erase right.erase Span.zero
  | .call function arguments _ => .call function.erase (Argument.eraseAll arguments) Span.zero
  | .list items _ => .list (Expr.eraseAll items) Span.zero
  | .quantified collection quantifier condition _ =>
      .quantified collection.erase quantifier condition.erase Span.zero

def Argument.erase : Argument → Argument
  | .positional value => .positional value.erase
  | .named name value => .named name.erase value.erase

def Expr.eraseAll : List Expr → List Expr
  | [] => []
  | item :: rest => item.erase :: Expr.eraseAll rest

def Argument.eraseAll : List Argument → List Argument
  | [] => []
  | argument :: rest => argument.erase :: Argument.eraseAll rest

end

mutual

def Expr.same : Expr → Expr → Bool
  | .literal left _, .literal right _ => left == right
  | .this _, .this _ => true
  | .reference left _, .reference right _ => left == right
  | .access object member _, .access object' member' _ => object.same object' && member == member'
  | .unary op operand _, .unary op' operand' _ => op == op' && operand.same operand'
  | .binary op left right _, .binary op' left' right' _ =>
      op == op' && left.same left' && right.same right'
  | .call function arguments _, .call function' arguments' _ =>
      function == function' && Argument.sameAll arguments arguments'
  | .list items _, .list items' _ => Expr.sameAll items items'
  | .quantified collection quantifier condition _,
      .quantified collection' quantifier' condition' _ =>
      collection.same collection' && quantifier == quantifier' && condition.same condition'
  | _, _ => false

def Argument.same : Argument → Argument → Bool
  | .positional left, .positional right => left.same right
  | .named name left, .named name' right => name == name' && left.same right
  | _, _ => false

def Expr.sameAll : List Expr → List Expr → Bool
  | [], [] => true
  | left :: lefts, right :: rights => left.same right && Expr.sameAll lefts rights
  | _, _ => false

def Argument.sameAll : List Argument → List Argument → Bool
  | [], [] => true
  | left :: lefts, right :: rights => left.same right && Argument.sameAll lefts rights
  | _, _ => false

end

instance : BEq Expr := ⟨Expr.same⟩
instance : BEq Argument := ⟨Argument.same⟩

theorem Expr.eraseAll_eq_map (items : List Expr) : Expr.eraseAll items = items.map Expr.erase := by
  induction items with
  | nil => rfl
  | cons item rest ih => simp [Expr.eraseAll, ih]

theorem Argument.eraseAll_eq_map (arguments : List Argument) :
    Argument.eraseAll arguments = arguments.map Argument.erase := by
  induction arguments with
  | nil => rfl
  | cons argument rest ih => simp [Argument.eraseAll, ih]

end Schemata
