import Schemata.Syntax.Expr
import Schemata.Syntax.Reading

/-!
# Reading expressions

One level of binary operators reads operands of the next tighter level and joins them from the
left. Below the levels stand the unary operators, then the suffixes of member access and collection
predicates, then the primary forms.

Each function either takes a character or passes to the next of at most a dozen levels, so the fuel
of `expression` never runs out.
-/

set_option autoImplicit false

namespace Schemata.Reading

def operator? (cursor : Cursor) : List BinaryOp → Option (BinaryOp × Cursor)
  | [] => none
  | op :: ops =>
      match cursor.chars? op.symbol.toList with
      | some after => some (op, after)
      | none => operator? cursor ops

def quantifier? (comments : Bool) (cursor : Cursor) : Option (Quantifier × Cursor) :=
  match cursor.rest with
  | [] => none
  | char :: rest =>
      match Quantifier.ofSymbol? char with
      | none => none
      | some quantifier =>
          let after := Cursor.skip comments ⟨cursor.offset + char.utf8Size, rest⟩
          (after.char? '[').map fun after => (quantifier, after)

def unaryOp? (cursor : Cursor) : Option (UnaryOp × Cursor) :=
  match cursor.rest with
  | [] => none
  | char :: rest =>
      (UnaryOp.ofSymbol? char).map fun op => (op, ⟨cursor.offset + char.utf8Size, rest⟩)

def label? (comments : Bool) (cursor : Cursor) : Option (Ident × Cursor) :=
  match cursor.ident? comments with
  | none => none
  | some (name, after) => ((after.skip comments).char? ':').map fun after => (name, after)

def reserved? (name : String) (span : Span) : Option Expr :=
  match name with
  | "true" => some (.literal (.boolean true) span)
  | "false" => some (.literal (.boolean false) span)
  | "null" => some (.literal .null span)
  | "this" => some (.this span)
  | _ => none

mutual

def expressionWith (comments : Bool) : Nat → Cursor → Reading (Expr × Cursor)
  | 0, cursor => miss cursor .expression
  | fuel + 1, cursor => binaryWith comments fuel BinaryOp.levels cursor

def binaryWith (comments : Bool) : Nat → List (List BinaryOp) → Cursor → Reading (Expr × Cursor)
  | 0, _, cursor => miss cursor .expression
  | fuel + 1, [], cursor => unaryWith comments fuel cursor
  | fuel + 1, ops :: tighter, cursor => do
      let (left, cursor) ← binaryWith comments fuel tighter cursor
      joinWith comments fuel ops tighter left cursor

def joinWith (comments : Bool) :
    Nat → List BinaryOp → List (List BinaryOp) → Expr → Cursor → Reading (Expr × Cursor)
  | 0, _, _, _, cursor => miss cursor .expression
  | fuel + 1, ops, tighter, left, cursor =>
      match operator? (cursor.skip comments) ops with
      | none => .ok (left, cursor)
      | some (op, after) => do
          let (right, cursor) ← binaryWith comments fuel tighter after
          joinWith comments fuel ops tighter
            (.binary op left right (left.span.cover right.span)) cursor

def unaryWith (comments : Bool) : Nat → Cursor → Reading (Expr × Cursor)
  | 0, cursor => miss cursor .expression
  | fuel + 1, cursor =>
      let cursor := cursor.skip comments
      match unaryOp? cursor with
      | some (op, after) => do
          let (operand, after) ← unaryWith comments fuel after
          .ok (.unary op operand ⟨cursor.offset, after.offset⟩, after)
      | none => do
          let (object, after) ← primaryWith comments fuel cursor
          suffixesWith comments fuel cursor.offset object after

def suffixesWith (comments : Bool) : Nat → Nat → Expr → Cursor → Reading (Expr × Cursor)
  | 0, _, _, cursor => miss cursor .expression
  | fuel + 1, start, object, cursor =>
      let ahead := cursor.skip comments
      match ahead.char? '.' with
      | some after => do
          let (name, after) ← ident comments .memberName after
          suffixesWith comments fuel start (.access object name ⟨start, after.offset⟩) after
      | none =>
          match quantifier? comments ahead with
          | some (quantifier, after) => do
              let (condition, after) ← expressionWith comments fuel after
              let after ← char comments ']' .conditionEnd after
              suffixesWith comments fuel start
                (.quantified object quantifier condition ⟨start, after.offset⟩) after
          | none => .ok (object, cursor)

def primaryWith (comments : Bool) : Nat → Cursor → Reading (Expr × Cursor)
  | 0, cursor => miss cursor .expression
  | fuel + 1, cursor =>
      let cursor := cursor.skip comments
      let start := cursor.offset
      match cursor.char? '(' with
      | some after => do
          let (inner, after) ← expressionWith comments fuel after
          let after ← char comments ')' .closingParenthesis after
          .ok (inner.withSpan ⟨start, after.offset⟩, after)
      | none =>
      match cursor.char? '[' with
      | some after => do
          let (values, after) ←
            items comments ']' .commaOrBracket (expressionWith comments fuel) after
          .ok (.list values ⟨start, after.offset⟩, after)
      | none =>
      if cursor.startsQuoted then do
        let (text, after) ← quoted cursor
        .ok (.literal (.string text) ⟨start, after.offset⟩, after)
      else if cursor.rest.head?.any Char.isDigit then
        let (text, after) := cursor.number
        .ok (.literal (.number text) ⟨start, after.offset⟩, after)
      else
      match cursor.identifier? with
      | none => miss cursor .expression
      | some (name, after) =>
          match reserved? name ⟨start, after.offset⟩ with
          | some word => .ok (word, after)
          | none =>
              match (after.skip comments).char? '(' with
              | none => .ok (.reference ⟨name, ⟨start, after.offset⟩⟩ ⟨start, after.offset⟩, after)
              | some inside => do
                  let (arguments, close) ←
                    items comments ')' .commaOrParenthesis (argumentWith comments fuel) inside
                  .ok (.call ⟨name, ⟨start, after.offset⟩⟩ arguments ⟨start, close.offset⟩, close)

def argumentWith (comments : Bool) : Nat → Cursor → Reading (Argument × Cursor)
  | 0, cursor => miss cursor .expression
  | fuel + 1, cursor =>
      match label? comments cursor with
      | some (name, after) => do
          let (value, after) ← expressionWith comments fuel after
          .ok (.named name value, after)
      | none => do
          let (value, after) ← expressionWith comments fuel cursor
          .ok (.positional value, after)

end

def fuelFor (cursor : Cursor) : Nat := 16 * (cursor.rest.length + 1)

def expression (comments : Bool) (cursor : Cursor) : Reading (Expr × Cursor) :=
  expressionWith comments (fuelFor cursor) cursor

def arguments (comments : Bool) (cursor : Cursor) : Reading (List Argument × Cursor) :=
  items comments ')' .commaOrParenthesis (argumentWith comments (fuelFor cursor)) cursor

end Schemata.Reading

namespace Schemata

def Expr.readWith (comments : Bool) (text : String) : Except ParseError Expr :=
  let whole : Reading Expr := do
    let (expr, cursor) ← Reading.expression comments (Cursor.ofText text)
    let cursor := cursor.skip comments
    if cursor.rest.isEmpty then .ok expr else .error ⟨.trailingInput, cursor.offset⟩
  whole.mapError (ParseError.ofSyntaxError text)

def Expr.read (text : String) : Except ParseError Expr := Expr.readWith true text

end Schemata
