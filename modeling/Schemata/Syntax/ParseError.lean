import Schemata.Text.Position

set_option autoImplicit false

namespace Schemata

inductive Expected
  | expression
  | stringLiteral
  | memberName
  | closingParenthesis
  | conditionEnd
  | commaOrParenthesis
  | commaOrBracket
  | declaration
  | modelKeyword
  | blockName
  | blockStart
  | entry
  | equals
  | enumName
  | enumStart
  | enumMember
  | modelName
  | baseName
  | modelStart
  | modelMember
  | typeName
  | unsupportedStart
  | attributeName
  | attributeSign
  | functionName
  | paramsStart
  | paramName
  | paramColon
  | resultColon
  | bodyStart
  | bodyEnd
deriving Repr, DecidableEq, Inhabited

namespace Expected

def describe : Expected → String
  | .expression => "an expression"
  | .stringLiteral => "a string literal"
  | .memberName => "a member name after `.`"
  | .closingParenthesis => "`)`"
  | .conditionEnd => "`]` to close the collection predicate"
  | .commaOrParenthesis => "`,` or `)`"
  | .commaOrBracket => "`,` or `]`"
  | .declaration => "a declaration: datasource, plugin, enum, model, function or attribute"
  | .modelKeyword => "`model` after `abstract`"
  | .blockName => "a block name"
  | .blockStart => "`\x7b`"
  | .entry => "a `name = value` entry or `\x7d`"
  | .equals => "`=`"
  | .enumName => "an enum name"
  | .enumStart => "`\x7b` to open the enum body"
  | .enumMember => "an enum member or `\x7d`"
  | .modelName => "a model name"
  | .baseName => "a base model name"
  | .modelStart => "`\x7b` to open the model body"
  | .modelMember => "a field declaration, a model attribute or `\x7d`"
  | .typeName => "a type"
  | .unsupportedStart => "`(` after `Unsupported`"
  | .attributeName => "an attribute name"
  | .attributeSign => "an attribute name starting with `@`"
  | .functionName => "a function name"
  | .paramsStart => "`(` to open the parameter list"
  | .paramName => "a parameter name"
  | .paramColon => "`:` after the parameter name"
  | .resultColon => "`:` before the return type"
  | .bodyStart => "`\x7b` to open the function body"
  | .bodyEnd => "`\x7d` to close the function body"

end Expected

inductive SyntaxCause
  | expected (what : Expected)
  | unterminatedString
  | trailingInput
deriving Repr, DecidableEq, Inhabited

def SyntaxCause.describe : SyntaxCause → String
  | .expected what => "expected " ++ what.describe
  | .unterminatedString => "unterminated string literal"
  | .trailingInput => "unexpected trailing input after expression"

structure SyntaxError where
  cause : SyntaxCause
  offset : Nat
deriving Repr, DecidableEq, Inhabited

structure ParseError where
  cause : SyntaxCause
  offset : Nat
  position : Position
deriving Repr, DecidableEq, Inhabited

namespace ParseError

def ofSyntaxError (text : String) (error : SyntaxError) : ParseError :=
  ⟨error.cause, error.offset, Position.ofOffset text error.offset⟩

def message (error : ParseError) : String :=
  "parse error on line " ++ toString error.position.line ++ ", column " ++
    toString error.position.column ++ ": " ++ error.cause.describe

end ParseError

end Schemata
