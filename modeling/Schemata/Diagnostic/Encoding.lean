import Schemata.Diagnostic.Basic
import Schemata.Syntax.Encoding

set_option autoImplicit false

namespace Schemata.Diagnostic

def members (diagnostic : Diagnostic) : List (String × Json) :=
  [("message", .string diagnostic.message), ("severity", .string diagnostic.severity.name),
    ("kind", .string diagnostic.kind.name), ("span", diagnostic.span.toJson)]

def toJson (diagnostic : Diagnostic) : Json := .object diagnostic.members

def ofJson? (json : Json) : Option Diagnostic := do
  let kind ← json.field? "kind" (Json.named? DiagnosticKind.all DiagnosticKind.name)
  let message ← json.field? "message" Json.string?
  some ⟨.worded kind message, ← json.field? "severity" (Json.named? Severity.all Severity.name),
    ← json.field? "span" Span.ofJson?⟩

end Schemata.Diagnostic
