import Schemata.Format
import Schemata.Json.Printer
import Schemata.Predicate.Lower
import Schemata.Report
import Schemata.Storage

set_option autoImplicit false

namespace Schemata

structure Outcome where
  stdout : String
  stderr : String
  failed : Bool
deriving Repr, DecidableEq, Inhabited

inductive CommandError
  | noInput (path : String)
  | noDocuments
  | twoOutputs
  | unreadable (path : String) (error : FileError)
  | unwritable (error : FileError)
  | malformed (path : String) (error : ParseError)
  | notFormatted (path : String) (error : FormatError)
  | invalid (path : String) (errors : List Diagnostic)
  | notLowered (error : LowerError)

namespace CommandError

def message : CommandError → String
  | .noInput path => "no such file or directory: " ++ path
  | .noDocuments => "no .zmodel files found"
  | .twoOutputs => "cannot use --write and --out together"
  | .unreadable path error => "failed to read " ++ path ++ ": " ++ error.message
  | .unwritable error => error.message
  | .malformed path error => path ++ ": " ++ error.message
  | .notFormatted path error => path ++ ": " ++ error.message
  | .invalid path errors =>
      path ++ " has " ++ toString errors.length ++
        " error(s); fix them before compiling policies"
  | .notLowered error => "failed to compile policies: " ++ error.message

def details : CommandError → List String
  | .invalid path errors => errors.map fun diagnostic => path ++ ": " ++ diagnostic.describe
  | _ => []

end CommandError

def unlines (lines : List String) : String := String.join (lines.map (· ++ "\n"))

namespace Outcome

def ofError (error : CommandError) : Outcome :=
  ⟨"", unlines (error.details ++ ["Error: " ++ error.message]), true⟩

def printed (text : String) : Outcome := ⟨text, "", false⟩

def done (action path : String) : Outcome := ⟨"", unlines [action ++ " " ++ path], false⟩

def ofReports (asJson : Bool) (reports : List Report) : Outcome :=
  let failures := reports.countP Report.hasErrors
  let summary :=
    if failures = 0 then "ok validated " ++ toString reports.length ++ " document(s)"
    else "failed " ++ toString failures ++ " of " ++ toString reports.length ++
      " document(s) have errors"
  if asJson then
    ⟨unlines [(Json.array (reports.map Report.toJson)).pretty], "", failures ≠ 0⟩
  else ⟨unlines (reports.flatMap Report.lines), unlines [summary], failures ≠ 0⟩

end Outcome

end Schemata
