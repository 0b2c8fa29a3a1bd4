import Schemata.Diagnostic.Basic
import Schemata.Library

/-!
# Symbol tables

A symbol table holds the built-in declarations and those of a document by name. Of several
declarations of one name the first counts, and built-in declarations come first.
-/

set_option autoImplicit false

namespace Schemata

inductive Origin
  | library
  | document
deriving Repr, DecidableEq, Inhabited

inductive ResolvedType
  | scalar (kind : Scalar)
  | enum (decl : EnumDecl)
  | model (decl : Model)
  | builtin (kind : Builtin)
  | unsupported
  | unresolved
deriving Repr, Inhabited

namespace ResolvedType

def isScalarOrEnum : ResolvedType → Bool
  | .scalar _ | .enum _ => true
  | _ => false

def model? : ResolvedType → Option Model
  | .model decl => some decl
  | _ => none

def sameScalar : ResolvedType → ResolvedType → Bool
  | .scalar left, .scalar right => left == right
  | .enum left, .enum right => left.name == right.name
  | _, _ => false

def describe : ResolvedType → String
  | .scalar kind => kind.name
  | .enum decl => decl.name.name
  | .model decl => decl.name.name
  | .builtin kind => kind.name
  | .unsupported => "Unsupported"
  | .unresolved => "<unresolved>"

end ResolvedType

structure Symbol where
  declaration : Declaration
  origin : Origin
deriving Repr, Inhabited

def Symbol.name (symbol : Symbol) : String := symbol.declaration.name.name

structure SymbolTable where
  document : Document
  symbols : List Symbol
deriving Repr, Inhabited

namespace SymbolTable

def find? (symbols : List Symbol) (name : String) : Option Symbol :=
  symbols.find? (·.name == name)

def extend (symbols : List Symbol) : List Declaration → List Symbol × List Diagnostic
  | [] => (symbols, [])
  | declaration :: rest =>
      let name := declaration.name
      let clash (issue : StructureIssue) :=
        let (all, diagnostics) := extend symbols rest
        (all, .error name.span (.structural issue) :: diagnostics)
      match find? symbols name.name with
      | some ⟨_, .library⟩ => clash (.shadowsLibrary name.name)
      | some ⟨_, .document⟩ => clash (.duplicateName name.name)
      | none => extend (symbols ++ [⟨declaration, .document⟩]) rest

def librarySymbols : List Symbol :=
  Library.document.declarations.map fun declaration => ⟨declaration, .library⟩

def ofDocument (document : Document) : SymbolTable :=
  ⟨document, (extend librarySymbols document.declarations).1⟩

def clashes (document : Document) : List Diagnostic :=
  (extend librarySymbols document.declarations).2

variable (table : SymbolTable)

def symbol? (name : String) : Option Symbol := find? table.symbols name

def declaration? (name : String) : Option Declaration :=
  (table.symbol? name).map Symbol.declaration

def origin? (name : String) : Option Origin :=
  (table.symbol? name).map Symbol.origin

def model? (name : String) : Option Model :=
  match table.declaration? name with
  | some (.model model) => some model
  | _ => none

def enum? (name : String) : Option EnumDecl :=
  match table.declaration? name with
  | some (.enum decl) => some decl
  | _ => none

def function? (name : String) : Option FunctionDecl :=
  match table.declaration? name with
  | some (.function decl) => some decl
  | _ => none

def attribute? (name : String) : Option AttributeDecl :=
  match table.declaration? name with
  | some (.attr decl) => some decl
  | _ => none

def enumsOf (origin : Origin) : List EnumDecl :=
  table.symbols.filterMap fun symbol =>
    match symbol.declaration with
    | .enum decl => if symbol.origin = origin then some decl else none
    | _ => none

def enums : List EnumDecl := table.enumsOf .document ++ table.enumsOf .library

/-- Find the first enum with a member of a name. Members are visible by their bare names. -/
def enumMember? (name : String) : Option (EnumDecl × EnumMember) :=
  table.enums.findSome? fun decl => (decl.member? name).map fun found => (decl, found)

def resolve (type : TypeRef) : ResolvedType :=
  match type.name with
  | .scalar kind => .scalar kind
  | .builtin kind => .builtin kind
  | .unsupported _ => .unsupported
  | .named name =>
      match table.declaration? name.name with
      | some (.model model) => .model model
      | some (.enum decl) => .enum decl
      | _ => .unresolved

end SymbolTable

end Schemata
