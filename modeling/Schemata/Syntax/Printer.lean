import Schemata.Syntax.Document
import Schemata.Text.Quoted

/-!
# Canonical text

Print a tree in its canonical form: four spaces of indentation, one empty line between
declarations, double quotes, single spaces around binary operators, and parentheses only where the
operators need them.
-/

set_option autoImplicit false

namespace Schemata

def commaSeparated : List String → String
  | [] => ""
  | [text] => text
  | text :: rest => text ++ ", " ++ commaSeparated rest

def Literal.print : Literal → String
  | .string text => Quoted.quote text
  | .number text => text
  | .boolean true => "true"
  | .boolean false => "false"
  | .null => "null"

def parenthesized (enclosed : Bool) (text : String) : String :=
  if enclosed then "(" ++ text ++ ")" else text

mutual

/-- Print an expression as an operand, enclosed if it binds looser than `binding`. -/
def Expr.printAt (binding : Nat) : Expr → String
  | .literal value _ => value.print
  | .this _ => "this"
  | .reference name _ => name.name
  | .access object member _ => object.printAt 8 ++ "." ++ member.name
  | .unary op operand _ =>
      parenthesized (decide (7 < binding)) (op.symbol.toString ++ operand.printAt 7)
  | .binary op left right _ =>
      parenthesized (decide (op.precedence < binding))
        (left.printAt op.precedence ++ " " ++ op.symbol ++ " " ++
          right.printAt (op.precedence + 1))
  | .call function arguments _ =>
      function.name ++ "(" ++ commaSeparated (Argument.printAll arguments) ++ ")"
  | .list items _ => "[" ++ commaSeparated (Expr.printAll items) ++ "]"
  | .quantified collection quantifier condition _ =>
      collection.printAt 8 ++ quantifier.symbol.toString ++ "[" ++ condition.printAt 0 ++ "]"

def Argument.print : Argument → String
  | .positional value => value.printAt 0
  | .named name value => name.name ++ ": " ++ value.printAt 0

def Expr.printAll : List Expr → List String
  | [] => []
  | item :: rest => item.printAt 0 :: Expr.printAll rest

def Argument.printAll : List Argument → List String
  | [] => []
  | argument :: rest => argument.print :: Argument.printAll rest

end

theorem Expr.printAll_eq_map (items : List Expr) :
    Expr.printAll items = items.map (Expr.printAt 0) := by
  induction items with
  | nil => rfl
  | cons item rest ih => rw [Expr.printAll, ih, List.map_cons]

theorem Argument.printAll_eq_map (arguments : List Argument) :
    Argument.printAll arguments = arguments.map Argument.print := by
  induction arguments with
  | nil => rfl
  | cons argument rest ih => rw [Argument.printAll, ih, List.map_cons]

def Expr.print (expr : Expr) : String := expr.printAt 0

def TypeName.print : TypeName → String
  | .scalar kind => kind.name
  | .builtin kind => kind.name
  | .unsupported text => "Unsupported(" ++ Quoted.quote text ++ ")"
  | .named name => name.name

def TypeRef.print (type : TypeRef) : String :=
  type.name.print ++ (if type.isList then "[]" else "") ++ (if type.isOptional then "?" else "")

def Attribute.print (applied : Attribute) : String :=
  if applied.arguments.isEmpty then applied.name.name
  else applied.name.name ++ "(" ++ commaSeparated (applied.arguments.map Argument.print) ++ ")"

def Attribute.printTrailing (attributes : List Attribute) : String :=
  String.join (attributes.map fun applied => " " ++ applied.print)

def bodyLine (text : String) : String := "    " ++ text ++ "\n"

def Attribute.printBody (size : Nat) (attributes : List Attribute) : String :=
  (if size != 0 && !attributes.isEmpty then "\n" else "") ++
    String.join (attributes.map fun applied => bodyLine applied.print)

def ConfigBlock.print (keyword : String) (block : ConfigBlock) : String :=
  keyword ++ " " ++ block.name.name ++ " \x7b\n" ++
    String.join (block.entries.map fun entry =>
      bodyLine (entry.name.name ++ " = " ++ entry.value.print)) ++ "\x7d\n"

def EnumDecl.print (decl : EnumDecl) : String :=
  "enum " ++ decl.name.name ++ " \x7b\n" ++
    String.join (decl.members.map fun enumMember =>
      bodyLine (enumMember.name.name ++ Attribute.printTrailing enumMember.attributes)) ++
    Attribute.printBody decl.members.length decl.attributes ++ "\x7d\n"

def Model.print (model : Model) : String :=
  (if model.isAbstract then "abstract " else "") ++ "model " ++ model.name.name ++
    (if model.bases.isEmpty then ""
      else " extends " ++ commaSeparated (model.bases.map Ident.name)) ++ " \x7b\n" ++
    String.join (model.fields.map fun field =>
      bodyLine (field.name.name ++ " " ++ field.type.print ++
        Attribute.printTrailing field.attributes)) ++
    Attribute.printBody model.fields.length model.attributes ++ "\x7d\n"

def FunctionParam.print (param : FunctionParam) : String :=
  param.name.name ++ ": " ++ param.type.print

def FunctionDecl.print (decl : FunctionDecl) : String :=
  "function " ++ decl.name.name ++ "(" ++ commaSeparated (decl.params.map FunctionParam.print) ++
    "): " ++ decl.result.print ++
    match decl.body with
    | some body => " \x7b\n" ++ bodyLine body.print ++ "\x7d\n"
    | none => " \x7b\x7d\n"

def AttributeParam.print (param : AttributeParam) : String :=
  (if param.isPositional then "_ " else "") ++ param.name.name ++ ": " ++ param.type.print

def AttributeDecl.print (decl : AttributeDecl) : String :=
  "attribute " ++ decl.name.name ++ "(" ++
    commaSeparated (decl.params.map AttributeParam.print) ++ ")" ++
    Attribute.printTrailing decl.restrictions ++ "\n"

def Declaration.print : Declaration → String
  | .dataSource block => block.print "datasource"
  | .plugin block => block.print "plugin"
  | .enum decl => decl.print
  | .model decl => decl.print
  | .function decl => decl.print
  | .attr decl => decl.print

def Declaration.printAll : List Declaration → String
  | [] => ""
  | [declaration] => declaration.print
  | declaration :: rest => declaration.print ++ "\n" ++ Declaration.printAll rest

def Document.print (document : Document) : String :=
  Declaration.printAll document.declarations

end Schemata
