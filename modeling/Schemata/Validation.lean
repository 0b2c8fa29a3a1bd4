import Schemata.Attribute.Check
import Schemata.Relation.Infer
import Schemata.Schema.References
import Schemata.Schema.Structure

set_option autoImplicit false

namespace Schemata

inductive Pass
  | symbols
  | references
  | inheritance
  | structural
  | relations
  | attributes
  | functions
deriving Repr, DecidableEq, Inhabited

namespace Pass

def all : List Pass :=
  [.symbols, .references, .inheritance, .structural, .relations, .attributes, .functions]

def name : Pass → String
  | .symbols => "symbols"
  | .references => "references"
  | .inheritance => "inheritance"
  | .structural => "structure"
  | .relations => "relations"
  | .attributes => "attributes"
  | .functions => "functions"

def run (schema : Schema) (options : ValidationOptions) : Pass → List Diagnostic
  | .symbols => SymbolTable.clashes schema.document
  | .references => schema.symbols.checkReferences
  | .inheritance => Hierarchy.check schema.document.models
  | .structural => schema.checkStructure options
  | .relations => schema.relations.diagnostics
  | .attributes => schema.checkAttributes
  | .functions => schema.document.functions.flatMap (FunctionDecl.check schema)

end Pass

def Schema.diagnose (schema : Schema) (options : ValidationOptions) : List Diagnostic :=
  let diagnostics := Pass.all.flatMap (Pass.run schema options)
  if options.denyWarnings then diagnostics.map Diagnostic.promote else diagnostics

def hasErrors (diagnostics : List Diagnostic) : Bool := diagnostics.any Diagnostic.isError

structure Validation where
  schema : Schema
  diagnostics : List Diagnostic
deriving Repr, Inhabited

def Validation.isValid (validation : Validation) : Bool := !hasErrors validation.diagnostics

def Document.validate (document : Document) (options : ValidationOptions) : Validation :=
  let schema := Schema.ofDocument document
  ⟨schema, schema.diagnose options⟩

end Schemata
