import Schemata.Schema.SymbolTable

set_option autoImplicit false

namespace Schemata

namespace SymbolTable

variable (table : SymbolTable)

def checkType (type : TypeRef) : List Diagnostic :=
  match type.name with
  | .named name =>
      reportIf ((table.model? name.name).isNone && (table.enum? name.name).isNone)
        (.unresolved .type name)
  | _ => []

def checkAttributeNames (attributes : List Attribute) : List Diagnostic :=
  attributes.flatMap fun applied =>
    reportIf (table.attribute? applied.name.name).isNone (.unresolved .attr applied.name)

def checkBases (bases : List Ident) : List Diagnostic :=
  bases.flatMap fun base =>
    reportIf (table.model? base.name).isNone (.unresolved .model base)

def checkDeclaration : Declaration → List Diagnostic
  | .model model =>
      table.checkBases model.bases ++
        (model.fields.flatMap fun field =>
          table.checkType field.type ++ table.checkAttributeNames field.attributes) ++
        table.checkAttributeNames model.attributes
  | .enum decl =>
      (decl.members.flatMap fun enumMember => table.checkAttributeNames enumMember.attributes) ++
        table.checkAttributeNames decl.attributes
  | .function decl =>
      (decl.params.flatMap fun param => table.checkType param.type) ++ table.checkType decl.result
  | .attr decl =>
      (decl.params.flatMap fun param => table.checkType param.type) ++
        table.checkAttributeNames decl.restrictions
  | .dataSource _ | .plugin _ => []

def checkReferences : List Diagnostic :=
  table.document.declarations.flatMap table.checkDeclaration

end SymbolTable

end Schemata
