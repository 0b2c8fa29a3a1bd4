import Schemata.Syntax.Document
import Schemata.Syntax.ExprReader
import Schemata.Text.Blank

/-!
# Reading documents

A declaration is known by its first word. Bodies and lists of attributes take at least one character
for each of their parts, so fuel beyond the number of characters never runs out.
-/

set_option autoImplicit false

namespace Schemata.Reading

def unsupported (comments : Bool) (cursor : Cursor) : Reading (TypeName × Cursor) := do
  let cursor ← char comments '(' .unsupportedStart cursor
  let cursor := cursor.skip comments
  let (text, cursor) ← orMiss cursor.quoted? cursor .stringLiteral
  let cursor ← char comments ')' .closingParenthesis cursor
  .ok (.unsupported text, cursor)

def typeName (comments : Bool) (cursor : Cursor) : Reading (TypeName × Cursor) := do
  let (name, after) ← orMiss cursor.identifier? cursor .typeName
  if name = "Unsupported" then unsupported comments after
  else .ok (.ofIdent ⟨name, ⟨cursor.offset, after.offset⟩⟩, after)

def mark (text : String) (cursor : Cursor) : Bool × Cursor :=
  match cursor.chars? text.toList with
  | some after => (true, after)
  | none => (false, cursor)

/-- Read a type. Its modifiers follow it without blanks. -/
def typeRef (comments : Bool) (cursor : Cursor) : Reading (TypeRef × Cursor) := do
  let start := cursor.skip comments
  let (name, cursor) ← typeName comments start
  let (isList, cursor) := mark "[]" cursor
  let (isOptional, cursor) := mark "?" cursor
  .ok (⟨name, isList, isOptional, ⟨start.offset, cursor.offset⟩⟩, cursor)

def attributeAt (comments : Bool) (signs : String) (start cursor : Cursor) :
    Reading (Attribute × Cursor) := do
  let (name, cursor) ← orMiss cursor.identifier? cursor .attributeName
  let ident : Ident := ⟨signs ++ name, ⟨start.offset, cursor.offset⟩⟩
  match (cursor.skip comments).char? '(' with
  | some inside =>
      let (values, cursor) ← arguments comments inside
      .ok (⟨ident, values, ⟨start.offset, cursor.offset⟩⟩, cursor)
  | none => .ok (⟨ident, [], ident.span⟩, cursor)

def fieldSign? (cursor : Cursor) : Option Cursor :=
  match cursor.char? '@' with
  | some after => if (after.char? '@').isSome then none else some after
  | none => none

def attributesWith (comments : Bool) (signs : String) (sign? : Cursor → Option Cursor) :
    Nat → Cursor → Reading (List Attribute × Cursor)
  | 0, cursor => .ok ([], cursor)
  | fuel + 1, cursor =>
      let start := cursor.skip comments
      match sign? start with
      | none => .ok ([], cursor)
      | some after => do
          let (first, cursor) ← attributeAt comments signs start after
          let (others, cursor) ← attributesWith comments signs sign? fuel cursor
          .ok (first :: others, cursor)

def fieldAttributes (comments : Bool) (cursor : Cursor) : Reading (List Attribute × Cursor) :=
  attributesWith comments "@" fieldSign? (cursor.rest.length + 1) cursor

def restrictions (comments : Bool) (cursor : Cursor) : Reading (List Attribute × Cursor) :=
  attributesWith comments "@@@" (·.chars? ['@', '@', '@']) (cursor.rest.length + 1) cursor

def entriesWith (comments : Bool) : Nat → Cursor → Reading (List ConfigEntry × Cursor)
  | 0, cursor => miss cursor .entry
  | fuel + 1, cursor =>
      let start := cursor.skip comments
      match start.char? '\x7d' with
      | some after => .ok ([], after)
      | none => do
          let (name, cursor) ← ident comments .entry start
          let cursor ← char comments '=' .equals cursor
          let (value, cursor) ← expression comments cursor
          let entry := ⟨name, value, ⟨start.offset, cursor.offset⟩⟩
          let (entries, cursor) ← entriesWith comments fuel cursor
          .ok (entry :: entries, cursor)

/--
Read the members of a body up to its closing brace. Attributes with two signs may stand between
the members.
-/
def bodyWith {α : Type} (comments : Bool) (item : Cursor → Reading (α × Cursor)) :
    Nat → Cursor → Reading ((List α × List Attribute) × Cursor)
  | 0, cursor => miss cursor .modelMember
  | fuel + 1, cursor =>
      let start := cursor.skip comments
      match start.char? '\x7d' with
      | some after => .ok (([], []), after)
      | none =>
          match start.chars? ['@', '@'] with
          | some after => do
              let (first, cursor) ← attributeAt comments "@@" start after
              let ((members, attributes), cursor) ← bodyWith comments item fuel cursor
              .ok ((members, first :: attributes), cursor)
          | none => do
              let (first, cursor) ← item start
              let ((members, attributes), cursor) ← bodyWith comments item fuel cursor
              .ok ((first :: members, attributes), cursor)

def body {α : Type} (comments : Bool) (item : Cursor → Reading (α × Cursor)) (cursor : Cursor) :
    Reading ((List α × List Attribute) × Cursor) :=
  bodyWith comments item (cursor.rest.length + 1) cursor

def enumMember (comments : Bool) (start : Cursor) : Reading (EnumMember × Cursor) := do
  let (name, cursor) ← ident comments .enumMember start
  let (attributes, cursor) ← fieldAttributes comments cursor
  .ok (⟨name, attributes, ⟨start.offset, cursor.offset⟩⟩, cursor)

def field (comments : Bool) (start : Cursor) : Reading (Field × Cursor) := do
  let (name, cursor) ← ident comments .modelMember start
  let (type, cursor) ← typeRef comments cursor
  let (attributes, cursor) ← fieldAttributes comments cursor
  .ok (⟨name, type, attributes, ⟨start.offset, cursor.offset⟩⟩, cursor)

def configBlock (comments : Bool) (start : Nat) (cursor : Cursor) :
    Reading (ConfigBlock × Cursor) := do
  let (name, cursor) ← ident comments .blockName cursor
  let cursor ← char comments '\x7b' .blockStart cursor
  let (entries, cursor) ← entriesWith comments (cursor.rest.length + 1) cursor
  .ok (⟨name, entries, ⟨start, cursor.offset⟩⟩, cursor)

def enumDecl (comments : Bool) (start : Nat) (cursor : Cursor) : Reading (EnumDecl × Cursor) := do
  let (name, cursor) ← ident comments .enumName cursor
  let cursor ← char comments '\x7b' .enumStart cursor
  let ((members, attributes), cursor) ← body comments (enumMember comments) cursor
  .ok (⟨name, members, attributes, ⟨start, cursor.offset⟩⟩, cursor)

def basesWith (comments : Bool) : Nat → Cursor → Reading (List Ident × Cursor)
  | 0, cursor => miss cursor .baseName
  | fuel + 1, cursor => do
      let (first, cursor) ← ident comments .baseName cursor
      match (cursor.skip comments).char? ',' with
      | none => .ok ([first], cursor)
      | some after =>
          let (others, cursor) ← basesWith comments fuel after
          .ok (first :: others, cursor)

def bases (comments : Bool) (cursor : Cursor) : Reading (List Ident × Cursor) :=
  match (cursor.skip comments).keyword? "extends" with
  | some after => basesWith comments (after.rest.length + 1) after
  | none => .ok ([], cursor)

def model (comments : Bool) (start : Nat) (isAbstract : Bool) (cursor : Cursor) :
    Reading (Model × Cursor) := do
  let (name, cursor) ← ident comments .modelName cursor
  let (bases, cursor) ← bases comments cursor
  let cursor ← char comments '\x7b' .modelStart cursor
  let ((fields, attributes), cursor) ← body comments (field comments) cursor
  .ok (⟨name, isAbstract, bases, fields, attributes, ⟨start, cursor.offset⟩⟩, cursor)

def functionParam (comments : Bool) (cursor : Cursor) : Reading (FunctionParam × Cursor) := do
  let (name, cursor) ← ident comments .paramName cursor
  let cursor ← char comments ':' .paramColon cursor
  let (type, cursor) ← typeRef comments cursor
  .ok (⟨name, type⟩, cursor)

def functionBody (comments : Bool) (cursor : Cursor) : Reading (Option Expr × Cursor) := do
  let cursor ← char comments '\x7b' .bodyStart cursor
  match (cursor.skip comments).char? '\x7d' with
  | some after => .ok (none, after)
  | none =>
      let (value, cursor) ← expression comments cursor
      let cursor ← char comments '\x7d' .bodyEnd cursor
      .ok (some value, cursor)

def functionDecl (comments : Bool) (start : Nat) (cursor : Cursor) :
    Reading (FunctionDecl × Cursor) := do
  let (name, cursor) ← ident comments .functionName cursor
  let cursor ← char comments '(' .paramsStart cursor
  let (params, cursor) ← items comments ')' .commaOrParenthesis (functionParam comments) cursor
  let cursor ← char comments ':' .resultColon cursor
  let (result, cursor) ← typeRef comments cursor
  let (value, cursor) ← functionBody comments cursor
  .ok (⟨name, params, result, value, ⟨start, cursor.offset⟩⟩, cursor)

/-- Read the underscore that marks a positional parameter. Any white space has to follow it. -/
def positionalMark (cursor : Cursor) : Bool × Cursor :=
  match cursor.char? '_' with
  | some after => if after.rest.head?.any isBlank then (true, after) else (false, cursor)
  | none => (false, cursor)

def attributeParam (comments : Bool) (cursor : Cursor) : Reading (AttributeParam × Cursor) := do
  let (isPositional, cursor) := positionalMark (cursor.skip comments)
  let (name, cursor) ← ident comments .paramName cursor
  let cursor ← char comments ':' .paramColon cursor
  let (type, cursor) ← typeRef comments cursor
  .ok (⟨name, type, isPositional⟩, cursor)

def attributeSigns? (cursor : Cursor) : List String → Option (String × Cursor)
  | [] => none
  | signs :: others =>
      match cursor.chars? signs.toList with
      | some after => some (signs, after)
      | none => attributeSigns? cursor others

def attributeDecl (comments : Bool) (start : Nat) (cursor : Cursor) :
    Reading (AttributeDecl × Cursor) := do
  let cursor := cursor.skip comments
  let nameStart := cursor.offset
  let (signs, cursor) ← orMiss (attributeSigns? cursor ["@@@", "@@", "@"]) cursor .attributeSign
  let (name, cursor) ← orMiss cursor.identifier? cursor .attributeName
  let ident : Ident := ⟨signs ++ name, ⟨nameStart, cursor.offset⟩⟩
  let cursor ← char comments '(' .paramsStart cursor
  let (params, cursor) ← items comments ')' .commaOrParenthesis (attributeParam comments) cursor
  let (restrictions, cursor) ← restrictions comments cursor
  .ok (⟨ident, params, restrictions, ⟨start, cursor.offset⟩⟩, cursor)

inductive Opening
  | dataSource
  | plugin
  | enum
  | abstract
  | model
  | function
  | attr
deriving Repr, DecidableEq, Inhabited

namespace Opening

def all : List Opening := [.dataSource, .plugin, .enum, .abstract, .model, .function, .attr]

def word : Opening → String
  | .dataSource => "datasource"
  | .plugin => "plugin"
  | .enum => "enum"
  | .abstract => "abstract"
  | .model => "model"
  | .function => "function"
  | .attr => "attribute"

end Opening

def opening? (cursor : Cursor) : List Opening → Option (Opening × Cursor)
  | [] => none
  | opening :: others =>
      match cursor.keyword? opening.word with
      | some after => some (opening, after)
      | none => opening? cursor others

def declaration (comments : Bool) (start : Cursor) : Reading (Declaration × Cursor) := do
  let (opening, cursor) ← orMiss (opening? start Opening.all) start .declaration
  match opening with
  | .dataSource =>
      let (block, cursor) ← configBlock comments start.offset cursor
      .ok (.dataSource block, cursor)
  | .plugin =>
      let (block, cursor) ← configBlock comments start.offset cursor
      .ok (.plugin block, cursor)
  | .enum =>
      let (decl, cursor) ← enumDecl comments start.offset cursor
      .ok (.enum decl, cursor)
  | .abstract =>
      let cursor := cursor.skip comments
      let cursor ← orMiss (cursor.keyword? "model") cursor .modelKeyword
      let (decl, cursor) ← model comments start.offset true cursor
      .ok (.model decl, cursor)
  | .model =>
      let (decl, cursor) ← model comments start.offset false cursor
      .ok (.model decl, cursor)
  | .function =>
      let (decl, cursor) ← functionDecl comments start.offset cursor
      .ok (.function decl, cursor)
  | .attr =>
      let (decl, cursor) ← attributeDecl comments start.offset cursor
      .ok (.attr decl, cursor)

def declarationsWith (comments : Bool) : Nat → Cursor → Reading (List Declaration)
  | 0, cursor => miss cursor .declaration
  | fuel + 1, cursor =>
      let start := cursor.skip comments
      if start.rest.isEmpty then .ok []
      else do
        let (first, cursor) ← declaration comments start
        let others ← declarationsWith comments fuel cursor
        .ok (first :: others)

end Schemata.Reading

namespace Schemata

/--
Read a whole text as a document. Without `comments`, a comment is refused like any other text.
-/
def Document.readWith (comments : Bool) (text : String) : Except ParseError Document :=
  let cursor := Cursor.ofText text
  ((Reading.declarationsWith comments (cursor.rest.length + 1) cursor).map Document.mk).mapError
    (ParseError.ofSyntaxError text)

def Document.read (text : String) : Except ParseError Document := Document.readWith true text

end Schemata
