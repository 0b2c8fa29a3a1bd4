import Schemata.Policy.Bundle
import Schemata.Predicate.Encoding

set_option autoImplicit false

namespace Schemata

namespace Operation

def toJson (operation : Operation) : Json := .string operation.name

def ofJson? (json : Json) : Option Operation := json.named? all name

end Operation

namespace Rule

def toJson (rule : Rule) : Json :=
  .object [("kind", .string rule.kind.name),
    ("operations", .array (rule.operations.map Operation.toJson)),
    ("predicate", rule.predicate.toJson), ("source", .string rule.source)]

def ofJson? (json : Json) : Option Rule := do
  some ⟨← json.field? "kind" (Json.named? RuleKind.all RuleKind.name),
    ← json.field? "operations" (Json.listOf? Operation.ofJson?),
    ← json.field? "predicate" Predicate.ofJson?, ← json.field? "source" Json.string?⟩

end Rule

namespace NameMap

def toJson {α : Type} (encode : α → Json) (map : NameMap α) : Json :=
  .object (map.entries.map fun (name, value) => (name, encode value))

def ofJson? {α : Type} (decode? : Json → Option α) (json : Json) : Option (NameMap α) :=
  match json with
  | .object members =>
      (members.mapM fun (entry : String × Json) =>
        (decode? entry.2).map fun value => (entry.1, value)).map ofList
  | _ => none

end NameMap

namespace ModelPolicy

def encodeRules (rules : List Rule) : Json := .array (rules.map Rule.toJson)

def decodeRules? (json : Json) : Option (List Rule) := json.listOf? Rule.ofJson?

def toJson (policy : ModelPolicy) : Json :=
  .object ([("model", .string policy.model), ("rules", encodeRules policy.rules)] ++
    if policy.fieldRules.isEmpty then []
    else [("field_rules", policy.fieldRules.toJson encodeRules)])

def ofJson? (json : Json) : Option ModelPolicy := do
  let fieldRules ←
    match json.member? "field_rules" with
    | none => some NameMap.empty
    | some rules => NameMap.ofJson? decodeRules? rules
  some ⟨← json.field? "model" Json.string?, ← json.field? "rules" decodeRules?, fieldRules⟩

end ModelPolicy

namespace Bundle

def toJson (bundle : Bundle) : Json := .object [("models", bundle.models.toJson ModelPolicy.toJson)]

def ofJson? (json : Json) : Option Bundle := do
  some ⟨← json.field? "models" (NameMap.ofJson? ModelPolicy.ofJson?)⟩

end Bundle

end Schemata
