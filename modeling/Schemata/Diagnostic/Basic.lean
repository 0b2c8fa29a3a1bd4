import Schemata.Diagnostic.Issue
import Schemata.Syntax.Ident

set_option autoImplicit false

namespace Schemata

inductive Severity
  | error
  | warning
deriving Repr, DecidableEq, Inhabited

namespace Severity

def all : List Severity := [.error, .warning]

def name : Severity → String
  | .error => "error"
  | .warning => "warning"

end Severity

inductive DiagnosticKind
  | link
  | structural
  | relation
  | inheritance
  | attributeBinding
  | expression
deriving Repr, DecidableEq, Inhabited

namespace DiagnosticKind

def all : List DiagnosticKind :=
  [.link, .structural, .relation, .inheritance, .attributeBinding, .expression]

def name : DiagnosticKind → String
  | .link => "link"
  | .structural => "structural"
  | .relation => "relation"
  | .inheritance => "inheritance"
  | .attributeBinding => "attribute_binding"
  | .expression => "expression"

def label : DiagnosticKind → String
  | .attributeBinding => "attribute"
  | kind => kind.name

end DiagnosticKind

inductive Issue
  | unresolved (target : LinkTarget) (name : String)
  | structural (issue : StructureIssue)
  | relation (issue : RelationIssue)
  | inheritance (issue : InheritanceIssue)
  | attr (issue : AttributeIssue)
  | typing (issue : TypeIssue)
  | worded (kind : DiagnosticKind) (text : String)
deriving Repr, DecidableEq, Inhabited

namespace Issue

def kind : Issue → DiagnosticKind
  | .unresolved _ _ => .link
  | .structural _ => .structural
  | .relation _ => .relation
  | .inheritance _ => .inheritance
  | .attr _ => .attributeBinding
  | .typing _ => .expression
  | .worded kind _ => kind

def message : Issue → String
  | .unresolved target name =>
      "Could not resolve reference to " ++ target.describe ++ " named '" ++ name ++ "'."
  | .structural issue => issue.message
  | .relation issue => issue.message
  | .inheritance issue => issue.message
  | .attr issue => issue.message
  | .typing issue => issue.message
  | .worded _ text => text

end Issue

structure Diagnostic where
  issue : Issue
  severity : Severity
  span : Span
deriving Repr, DecidableEq, Inhabited

namespace Diagnostic

def error (span : Span) (issue : Issue) : Diagnostic := ⟨issue, .error, span⟩

def warning (span : Span) (issue : Issue) : Diagnostic := ⟨issue, .warning, span⟩

def unresolved (target : LinkTarget) (ident : Ident) : Diagnostic :=
  error ident.span (.unresolved target ident.name)

def isError (diagnostic : Diagnostic) : Bool := diagnostic.severity == .error

def message (diagnostic : Diagnostic) : String := diagnostic.issue.message

def kind (diagnostic : Diagnostic) : DiagnosticKind := diagnostic.issue.kind

def describe (diagnostic : Diagnostic) : String :=
  diagnostic.severity.name ++ "[" ++ diagnostic.kind.label ++ "]: " ++ diagnostic.message

def promote (diagnostic : Diagnostic) : Diagnostic := { diagnostic with severity := .error }

end Diagnostic

def reportIf (condition : Bool) (diagnostic : Diagnostic) : List Diagnostic :=
  if condition then [diagnostic] else []

end Schemata
