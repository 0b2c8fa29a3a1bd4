set_option autoImplicit false

namespace Schemata

def inQuotes (name : String) : String := "\"" ++ name ++ "\""

inductive LinkTarget
  | type
  | value
  | function
  | field
  | attr
  | model
deriving Repr, DecidableEq, Inhabited

def LinkTarget.describe : LinkTarget → String
  | .type => "TypeDeclaration"
  | .value => "ReferenceTarget"
  | .function => "FunctionDecl"
  | .field => "DataModelField"
  | .attr => "Attribute"
  | .model => "DataModel"

inductive StructureIssue
  | shadowsLibrary (name : String)
  | duplicateName (name : String)
  | alreadyInherited (field base : String)
  | inheritedTwice (field first second : String)
  | optionalList
  | notAFieldType (type : String)
  | abstractTarget (field target : String)
  | severalIdFields
  | idNotScalar
  | idOptional
  | idOnFieldAndModel
  | severalModelIds
  | notIdentifying (field : String)
  | noIdentity
  | severalDataSources
  | pluginWithoutProvider (name : String)
  | noDataSource
  | noProvider (name : String)
  | providerNotString
  | unsupportedProvider (name : String) (supported : List String)
  | noUrl (name : String)
  | notAConnection (entry : String)
  | relationMode
  | unknownEntry (name : String)
  | emptyEnum (name : String)
deriving Repr, DecidableEq, Inhabited

def StructureIssue.message : StructureIssue → String
  | .shadowsLibrary name =>
      "Declaration " ++ inQuotes name ++ " conflicts with a standard library declaration"
  | .duplicateName name => "Duplicated declaration name " ++ inQuotes name
  | .alreadyInherited field base =>
      "Field " ++ inQuotes field ++ " is already inherited from model " ++ inQuotes base
  | .inheritedTwice field first second =>
      "Field " ++ inQuotes field ++ " is inherited from both " ++ inQuotes first ++ " and " ++
        inQuotes second
  | .optionalList => "Optional lists are not supported. Use either `Type[]` or `Type?`"
  | .notAFieldType type => "Type " ++ inQuotes type ++ " cannot be used as a field type"
  | .abstractTarget field target =>
      "Field " ++ inQuotes field ++ " cannot reference abstract model " ++ inQuotes target
  | .severalIdFields => "Model can include at most one field with @id attribute"
  | .idNotScalar => "Field with @id attribute must be of scalar or enum type"
  | .idOptional => "Field with @id attribute must not be optional"
  | .idOnFieldAndModel =>
      "Model cannot have both field-level @id and model-level @@id attributes"
  | .severalModelIds => "Model can include at most one @@id attribute"
  | .notIdentifying field =>
      "Field " ++ inQuotes field ++
        " cannot be used in @@id: it must be a required, non-list scalar or enum field"
  | .noIdentity =>
      "Model must have at least one unique criteria. Either mark a single field with `@id`, " ++
        "`@unique` or add a multi field criterion with `@@id([])` or `@@unique([])` to the model."
  | .severalDataSources => "Multiple datasource declarations are not allowed"
  | .pluginWithoutProvider name =>
      "Plugin " ++ inQuotes name ++ " must declare a \"provider\" string"
  | .noDataSource => "A datasource declaration is required"
  | .noProvider name => "Datasource " ++ inQuotes name ++ " must declare a \"provider\""
  | .providerNotString => "\"provider\" must be a string literal"
  | .unsupportedProvider name supported =>
      "Provider " ++ inQuotes name ++ " is not supported. Supported providers: " ++
        ", ".intercalate supported
  | .noUrl name => "Datasource " ++ inQuotes name ++ " must declare a \"url\""
  | .notAConnection entry => inQuotes entry ++ " must be a string literal or an env() call"
  | .relationMode => "\"relationMode\" must be \"foreignKeys\" or \"prisma\""
  | .unknownEntry name => "Unknown datasource field " ++ inQuotes name
  | .emptyEnum name => "Enum " ++ inQuotes name ++ " must have at least one member"

inductive InheritanceIssue
  | illegalBase (name : String)
  | severalDelegates
  | cycle (path : List String)
deriving Repr, DecidableEq, Inhabited

def InheritanceIssue.message : InheritanceIssue → String
  | .illegalBase name =>
      "Model " ++ inQuotes name ++
        " cannot be extended because it's neither abstract nor marked as \"@@delegate\""
  | .severalDelegates => "Extending from multiple delegate models is not supported"
  | .cycle path => "Circular inheritance detected: " ++ " -> ".intercalate path

inductive RelationIssue
  | incompleteKey
  | ambiguous (fields : List String) (model target : String)
  | missingOpposite (field model target : String)
  | keyOnBothSides
  | noKey (firstModel firstField secondModel secondField : String)
  | manyToManyKey (field : String)
  | keyOnListSide (field : String)
  | keyLengths
  | keyTypes (field type reference referenceType : String)
  | notOptional (field model : String)
  | notUnique (field : String)
deriving Repr, DecidableEq, Inhabited

def RelationIssue.message : RelationIssue → String
  | .incompleteKey => "Both \"fields\" and \"references\" must be provided"
  | .ambiguous fields model target =>
      "Fields " ++ ", ".intercalate (fields.map inQuotes) ++ " on model " ++ inQuotes model ++
        " refer to the same relation to model " ++ inQuotes target
  | .missingOpposite field model target =>
      "The relation field " ++ inQuotes field ++ " on model " ++ inQuotes model ++
        " is missing an opposite relation field on model " ++ inQuotes target
  | .keyOnBothSides =>
      "\"fields\" and \"references\" must be provided only on one side of relation field"
  | .noKey firstModel firstField secondModel secondField =>
      "Both \"fields\" and \"references\" must be provided on one side of the relation between " ++
        inQuotes (firstModel ++ "." ++ firstField) ++ " and " ++
        inQuotes (secondModel ++ "." ++ secondField)
  | .manyToManyKey field =>
      "Many-to-many relation field " ++ inQuotes field ++
        " cannot declare \"fields\" and \"references\""
  | .keyOnListSide field =>
      "\"fields\" and \"references\" must be declared on the non-list side of the relation, " ++
        "not on " ++ inQuotes field
  | .keyLengths => "\"references\" and \"fields\" must have the same length"
  | .keyTypes field type reference referenceType =>
      "values of \"references\" and \"fields\" must have the same type: " ++ inQuotes field ++
        " is " ++ type ++ " but " ++ inQuotes reference ++ " is " ++ referenceType
  | .notOptional field model =>
      "The relation field " ++ inQuotes field ++ " on model " ++ inQuotes model ++
        " is the non-owning side of a one-to-one relation and must be optional"
  | .notUnique field =>
      "Field " ++ inQuotes field ++ " is part of a one-to-one relation and must be marked as " ++
        "@unique or be part of a model-level @@unique attribute"

inductive AttributeIssue
  | unexpectedUnnamed (attr : String)
  | unknownParameter (attr name : String)
  | alreadyProvided (attr param : String)
  | missingRequired (attr param : String)
  | notAssignable (attr param : String)
  | notApplicable (attr : String)
  | unexpectedOption (name : String)
  | unnamedOption
  | invalidOperation (word : String) (fieldLevel : Bool)
  | inheritedDiscriminator (field model : String)
  | discriminatorType (field : String)
deriving Repr, DecidableEq, Inhabited

def AttributeIssue.message : AttributeIssue → String
  | .unexpectedUnnamed attr => "Unexpected unnamed argument for attribute " ++ inQuotes attr
  | .unknownParameter attr name =>
      "Attribute " ++ inQuotes attr ++ " doesn't have a parameter named " ++ inQuotes name
  | .alreadyProvided attr param =>
      "Parameter " ++ inQuotes param ++ " is already provided for attribute " ++ inQuotes attr
  | .missingRequired attr param =>
      "Required parameter not provided: " ++ inQuotes param ++ " of attribute " ++ inQuotes attr
  | .notAssignable attr param =>
      "Value is not assignable to parameter " ++ inQuotes param ++ " of attribute " ++
        inQuotes attr
  | .notApplicable attr =>
      "attribute " ++ inQuotes attr ++ " cannot be used on this type of field"
  | .unexpectedOption name => "Unexpected option " ++ inQuotes name ++ " in field reference"
  | .unnamedOption => "Field reference options must be named"
  | .invalidOperation word fieldLevel =>
      "Invalid policy operation " ++ inQuotes word ++ " for a " ++
        (if fieldLevel then "field" else "model") ++ "-level rule"
  | .inheritedDiscriminator field model =>
      "Discriminator field " ++ inQuotes field ++ " must be declared on model " ++ inQuotes model
  | .discriminatorType field =>
      "Discriminator field " ++ inQuotes field ++ " must be of String or enum type"

inductive TypeIssue
  | unsupportedField
  | thisOutsideModel
  | notOperand
  | negateOperand
  | conditionNotBoolean
  | notACollection
  | memberOfList (name : String)
  | memberOfNonModel (type : String)
  | logicalOperands (symbol : String)
  | arithmeticOperands (symbol : String)
  | relationalOperands (symbol : String)
  | incomparable (left right symbol : String)
  | noPrincipal (model : String)
  | futureNotAllowed
  | futureOutsideModel
  | tooManyArguments (function : String) (most given : Nat)
  | tooFewArguments (function : String) (least given : Nat)
  | namedArgument (function : String)
  | argumentType (type param function : String)
  | bodyType (function type result : String)
  | notBoolean (type : String)
deriving Repr, DecidableEq, Inhabited

def TypeIssue.message : TypeIssue → String
  | .unsupportedField => "Field of \"Unsupported\" type cannot be used in expressions"
  | .thisOutsideModel => "\"this\" can only be used inside a model"
  | .notOperand => "Operand of \"!\" must be a Boolean"
  | .negateOperand => "Operand of \"-\" must be numeric"
  | .conditionNotBoolean => "Collection predicate condition must be a Boolean expression"
  | .notACollection => "collection predicate can only be used on an array of model type"
  | .memberOfList name =>
      "Member " ++ inQuotes name ++ " cannot be accessed on a list; use a collection predicate"
  | .memberOfNonModel type =>
      "Member access requires a model-typed operand, found " ++ inQuotes type
  | .logicalOperands symbol => "Operands of " ++ inQuotes symbol ++ " must be Boolean"
  | .arithmeticOperands symbol => "Operands of " ++ inQuotes symbol ++ " must be numeric"
  | .relationalOperands symbol =>
      "Operands of " ++ inQuotes symbol ++ " must be numeric or DateTime"
  | .incomparable left right symbol =>
      "Incompatible operand types " ++ inQuotes left ++ " and " ++ inQuotes right ++ " for " ++
        inQuotes symbol
  | .noPrincipal model =>
      "auth() cannot be resolved because no " ++ inQuotes model ++ " model is defined"
  | .futureNotAllowed => "\"future()\" can only be used in \"update\" policy rules"
  | .futureOutsideModel => "\"future()\" can only be used inside a model"
  | .tooManyArguments function most given =>
      "Function " ++ inQuotes function ++ " expects at most " ++ toString most ++
        " argument(s) but " ++ toString given ++ " were provided"
  | .tooFewArguments function least given =>
      "Function " ++ inQuotes function ++ " requires " ++ toString least ++
        " argument(s) but " ++ toString given ++ " were provided"
  | .namedArgument function =>
      "Arguments of function " ++ inQuotes function ++ " cannot be named"
  | .argumentType type param function =>
      "Argument of type " ++ inQuotes type ++ " is not assignable to parameter " ++
        inQuotes param ++ " of function " ++ inQuotes function
  | .bodyType function type result =>
      "Body of function " ++ inQuotes function ++ " has type " ++ inQuotes type ++
        ", which is not assignable to return type " ++ inQuotes result
  | .notBoolean type => "Expected a Boolean expression, found " ++ inQuotes type

end Schemata
