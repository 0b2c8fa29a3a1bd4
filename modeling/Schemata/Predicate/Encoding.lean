import Schemata.Predicate.Basic
import Schemata.Syntax.Encoding

set_option autoImplicit false

namespace Schemata

def encodePath (path : List String) : Json := .array (path.map .string)

def decodePath? (json : Json) : Option (List String) := json.listOf? Json.string?

mutual

def Predicate.toJson : Predicate → Json
  | .const value => .object [("op", .string "const"), ("value", .bool value)]
  | .test operand => .object [("op", .string "test"), ("operand", operand.toJson)]
  | .not predicate => .object [("op", .string "not"), ("predicate", predicate.toJson)]
  | .and predicates =>
      .object [("op", .string "and"), ("predicates", .array (Predicate.toJsons predicates))]
  | .or predicates =>
      .object [("op", .string "or"), ("predicates", .array (Predicate.toJsons predicates))]
  | .comparison op left right =>
      .object [("op", .string "compare"), ("cmp", .string op.name), ("left", left.toJson),
        ("right", right.toJson)]
  | .any collection predicate =>
      .object [("op", .string "exists"), ("collection", collection.toJson),
        ("predicate", predicate.toJson)]

def Operand.toJson : Operand → Json
  | .value value => .object [("kind", .string "value"), ("value", value)]
  | .field scope path =>
      .object [("kind", .string "field"), ("scope", .int scope), ("path", encodePath path)]
  | .principal path => .object [("kind", .string "principal"), ("path", encodePath path)]
  | .future path => .object [("kind", .string "future"), ("path", encodePath path)]
  | .arithmetic op left right =>
      .object [("kind", .string "arithmetic"), ("arith", .string op.name), ("left", left.toJson),
        ("right", right.toJson)]
  | .negate operand => .object [("kind", .string "negate"), ("operand", operand.toJson)]
  | .list items => .object [("kind", .string "list"), ("items", .array (Operand.toJsons items))]
  | .call function arguments =>
      .object [("kind", .string "call"), ("function", .string function),
        ("args", .array (Operand.toJsons arguments))]
  | .predicate predicate =>
      .object [("kind", .string "predicate"), ("predicate", predicate.toJson)]

def Predicate.toJsons : List Predicate → List Json
  | [] => []
  | predicate :: rest => predicate.toJson :: Predicate.toJsons rest

def Operand.toJsons : List Operand → List Json
  | [] => []
  | operand :: rest => operand.toJson :: Operand.toJsons rest

end

mutual

def Predicate.ofJsonWith? : Nat → Json → Option Predicate
  | 0, _ => none
  | fuel + 1, json => do
      match ← json.field? "op" Json.string? with
      | "const" => some (.const (← json.field? "value" Json.bool?))
      | "test" => some (.test (← json.field? "operand" (Operand.ofJsonWith? fuel)))
      | "not" => some (.not (← json.field? "predicate" (Predicate.ofJsonWith? fuel)))
      | "and" =>
          some (.and (← json.field? "predicates" (Json.listOf? (Predicate.ofJsonWith? fuel))))
      | "or" =>
          some (.or (← json.field? "predicates" (Json.listOf? (Predicate.ofJsonWith? fuel))))
      | "compare" =>
          let op ← json.field? "cmp" (Json.named? Comparison.all Comparison.name)
          let left ← json.field? "left" (Operand.ofJsonWith? fuel)
          some (.comparison op left (← json.field? "right" (Operand.ofJsonWith? fuel)))
      | "exists" =>
          let collection ← json.field? "collection" (Operand.ofJsonWith? fuel)
          some (.any collection (← json.field? "predicate" (Predicate.ofJsonWith? fuel)))
      | _ => none

def Operand.ofJsonWith? : Nat → Json → Option Operand
  | 0, _ => none
  | fuel + 1, json => do
      match ← json.field? "kind" Json.string? with
      | "value" => some (.value (← json.member? "value"))
      | "field" =>
          let scope ← json.field? "scope" Json.nat?
          some (.field scope (← json.field? "path" decodePath?))
      | "principal" => some (.principal (← json.field? "path" decodePath?))
      | "future" => some (.future (← json.field? "path" decodePath?))
      | "arithmetic" =>
          let op ← json.field? "arith" (Json.named? Arithmetic.all Arithmetic.name)
          let left ← json.field? "left" (Operand.ofJsonWith? fuel)
          some (.arithmetic op left (← json.field? "right" (Operand.ofJsonWith? fuel)))
      | "negate" => some (.negate (← json.field? "operand" (Operand.ofJsonWith? fuel)))
      | "list" => some (.list (← json.field? "items" (Json.listOf? (Operand.ofJsonWith? fuel))))
      | "call" =>
          let function ← json.field? "function" Json.string?
          some (.call function (← json.field? "args" (Json.listOf? (Operand.ofJsonWith? fuel))))
      | "predicate" =>
          some (.predicate (← json.field? "predicate" (Predicate.ofJsonWith? fuel)))
      | _ => none

end

/-- Every level of a predicate takes at least one level of the JSON value. -/
def Predicate.ofJson? (json : Json) : Option Predicate :=
  Predicate.ofJsonWith? (json.depth + 1) json

end Schemata
