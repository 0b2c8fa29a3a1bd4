import Schemata.Schema.Basic

set_option autoImplicit false

namespace Schemata

structure ValidationOptions where
  requireDataSource : Bool
  denyWarnings : Bool
deriving Repr, DecidableEq, Inhabited

def ValidationOptions.standard : ValidationOptions := ⟨false, false⟩

namespace Schema

variable (schema : Schema)

def checkFieldType (field : Field) : List Diagnostic :=
  let span := field.type.span
  reportIf (field.type.isList && field.type.isOptional) (.error span (.structural .optionalList)) ++
    match schema.typeOf field with
    | .builtin kind => [.error span (.structural (.notAFieldType kind.name))]
    | .model target =>
        reportIf target.isAbstract
          (.error span (.structural (.abstractTarget field.name.name target.name.name)))
    | _ => []

def isIdentifying (visible : VisibleField) : Bool :=
  !visible.field.type.isOptional && !visible.field.type.isList &&
    (schema.typeOf visible.field).isScalarOrEnum

def checkIdField (field : Field) : List Diagnostic :=
  let span := field.name.span
  if field.type.isList || !(schema.typeOf field).isScalarOrEnum then
    [.error span (.structural .idNotScalar)]
  else reportIf field.type.isOptional (.error span (.structural .idOptional))

def checkKeyFields (model : Model) (applied : Attribute) : List Diagnostic :=
  applied.fieldNames.flatMap fun name =>
    match schema.field? model name with
    | some visible =>
        reportIf (!schema.isIdentifying visible)
          (.error applied.span (.structural (.notIdentifying name)))
    | none => []

def hasUniqueKey (model : Model) : Bool :=
  (schema.fields model).any
      (fun visible => visible.field.hasAttribute "@unique" && schema.isIdentifying visible) ||
    ((schema.attributes model).filter (·.name == "@@unique")).any fun visible =>
      let names := visible.applied.fieldNames
      !names.isEmpty && names.all fun name =>
        match schema.field? model name with
        | some field => schema.isIdentifying field
        | none => false

def checkIdentity (model : Model) : List Diagnostic :=
  let report (issue : StructureIssue) : Diagnostic := .error model.name.span (.structural issue)
  let idFields := (schema.fields model).filter fun visible => visible.field.hasAttribute "@id"
  let modelIds := (schema.attributes model).filter (·.name == "@@id")
  reportIf (1 < idFields.length) (report .severalIdFields) ++
    (idFields.flatMap fun visible => schema.checkIdField visible.field) ++
    reportIf (!idFields.isEmpty && !modelIds.isEmpty) (report .idOnFieldAndModel) ++
    reportIf (1 < modelIds.length) (report .severalModelIds) ++
    (modelIds.flatMap fun visible => schema.checkKeyFields model visible.applied) ++
    reportIf (idFields.isEmpty && modelIds.isEmpty && !schema.hasUniqueKey model)
      (report .noIdentity)

def checkModel (model : Model) : List Diagnostic :=
  model.fields.flatMap schema.checkFieldType ++
    if model.isAbstract then [] else schema.checkIdentity model

end Schema

def supportedProviders : List String :=
  ["postgresql", "mysql", "sqlite", "sqlserver", "cockroachdb"]

def relationModes : List String := ["foreignKeys", "prisma"]

def connectionEntries : List String := ["url", "directUrl", "shadowDatabaseUrl"]

/-- Decide whether an expression is a text, or `env` of a text. -/
def Expr.isConnection : Expr → Bool
  | .literal (.string _) _ => true
  | .call function [.positional value] _ => function.name == "env" && value.string?.isSome
  | _ => false

namespace ConfigBlock

def checkProvider (block : ConfigBlock) : List Diagnostic :=
  match block.entry? "provider" with
  | none => [.error block.name.span (.structural (.noProvider block.name.name))]
  | some entry =>
      match entry.value.string? with
      | none => [.error entry.value.span (.structural .providerNotString)]
      | some provider =>
          reportIf (!supportedProviders.contains provider)
            (.error entry.value.span
              (.structural (.unsupportedProvider provider supportedProviders)))

def checkEntry (entry : ConfigEntry) : List Diagnostic :=
  let name := entry.name.name
  if connectionEntries.contains name then
    reportIf (!entry.value.isConnection)
      (.error entry.value.span (.structural (.notAConnection name)))
  else if name = "relationMode" then
    reportIf (!(entry.value.string?.any relationModes.contains))
      (.error entry.value.span (.structural .relationMode))
  else
    reportIf (name != "provider") (.warning entry.name.span (.structural (.unknownEntry name)))

def checkDataSource (block : ConfigBlock) : List Diagnostic :=
  block.checkProvider ++
    reportIf (block.entry? "url").isNone
      (.error block.name.span (.structural (.noUrl block.name.name))) ++
    block.entries.flatMap checkEntry

def checkPlugin (block : ConfigBlock) : List Diagnostic :=
  reportIf ((block.entry? "provider").bind fun entry => entry.value.string?).isNone
    (.error block.name.span (.structural (.pluginWithoutProvider block.name.name)))

end ConfigBlock

namespace EnumDecl

def checkMembers (earlier : List String) : List EnumMember → List Diagnostic
  | [] => []
  | first :: rest =>
      let name := first.name.name
      reportIf (earlier.contains name)
          (.error first.name.span (.structural (.duplicateName name))) ++
        checkMembers (name :: earlier) rest

def check (decl : EnumDecl) : List Diagnostic :=
  reportIf decl.members.isEmpty
      (.error decl.name.span (.structural (.emptyEnum decl.name.name))) ++
    checkMembers [] decl.members

end EnumDecl

/-- Check the blocks and enums in order. `seen` says that a data source stands before them. -/
def Declaration.checkBlocks (seen : Bool) : List Declaration → List Diagnostic
  | [] => []
  | .dataSource block :: rest =>
      reportIf seen (.error block.name.span (.structural .severalDataSources)) ++
        block.checkDataSource ++ checkBlocks true rest
  | .plugin block :: rest => block.checkPlugin ++ checkBlocks seen rest
  | .enum decl :: rest => decl.check ++ checkBlocks seen rest
  | _ :: rest => checkBlocks seen rest

def Document.hasDataSource (document : Document) : Bool :=
  document.declarations.any fun
    | .dataSource _ => true
    | _ => false

def Schema.checkStructure (schema : Schema) (options : ValidationOptions) : List Diagnostic :=
  schema.hierarchy.models.flatMap schema.checkModel ++
    Declaration.checkBlocks false schema.document.declarations ++
    reportIf (options.requireDataSource && !schema.document.hasDataSource)
      (.error Span.zero (.structural .noDataSource))

end Schemata
