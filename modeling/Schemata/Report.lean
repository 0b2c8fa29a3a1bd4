import Schemata.Diagnostic.Encoding
import Schemata.Syntax.DocumentReader
import Schemata.Validation

set_option autoImplicit false

namespace Schemata

structure Report where
  path : String
  findings : Except ParseError (List (Position × Diagnostic))

namespace Report

def locate (text : String) (diagnostic : Diagnostic) : Position × Diagnostic :=
  (Position.ofOffset text diagnostic.span.start, diagnostic)

def ofText (options : ValidationOptions) (path text : String) : Report :=
  ⟨path, (Document.read text).map fun document =>
    (document.validate options).diagnostics.map (locate text)⟩

def hasErrors (report : Report) : Bool :=
  match report.findings with
  | .ok found => found.any fun (_, diagnostic) => diagnostic.isError
  | .error _ => true

def line (path : String) (position : Position) (diagnostic : Diagnostic) : String :=
  path ++ ":" ++ toString position.line ++ ":" ++ toString position.column ++ ": " ++
    diagnostic.describe

def lines (report : Report) : List String :=
  match report.findings with
  | .ok found => found.map fun (position, diagnostic) => line report.path position diagnostic
  | .error error => [report.path ++ ": error[parse]: " ++ error.message]

def findingToJson (position : Position) (diagnostic : Diagnostic) : Json :=
  .object (diagnostic.members ++
    [("line", .int position.line), ("column", .int position.column)])

def toJson (report : Report) : Json :=
  .object <| ("file", .string report.path) ::
    match report.findings with
    | .ok found =>
        [("diagnostics", .array (found.map fun (position, diagnostic) =>
          findingToJson position diagnostic))]
    | .error error => [("parse_error", .string error.message), ("diagnostics", .array [])]

end Report

end Schemata
