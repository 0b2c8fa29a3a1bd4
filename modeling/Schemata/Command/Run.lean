import Schemata.Command.Arguments
import Schemata.Command.Outcome
import Schemata.Policy.Encoding
import Schemata.Policy.Lower

set_option autoImplicit false

namespace Schemata

def Place.isDocument (place : Place) : Bool :=
  place.getLast?.any fun name => name.endsWith ".zmodel" && name != ".zmodel"

def Place.pathFrom (directory : String) (place : Place) : String :=
  directory ++ (if directory.endsWith "/" then "" else "/") ++ "/".intercalate place

namespace Command

variable {m : Type → Type} [Monad m] (storage : Storage m)

def readText (path : String) : ExceptT CommandError m String := do
  match ← storage.read path with
  | .ok text => return text
  | .error error => throw (.unreadable path error)

def writeText (action path text : String) : ExceptT CommandError m Outcome := do
  match ← storage.write path text with
  | .ok () => return .done action path
  | .error error => throw (.unwritable error)

def documents (input : String) : ExceptT CommandError m (List String) := do
  match ← storage.filesBeneath? input with
  | some places =>
      let places := (places.filter Place.isDocument).mergeSort Place.precedes
      return places.map (Place.pathFrom input)
  | none => if ← storage.hasFile input then return [input] else throw (.noInput input)

def validateAll (options : ValidationOptions) (inputs : List String) :
    ExceptT CommandError m (List Report) := do
  let paths ← inputs.mapM (documents storage)
  if paths.flatten.isEmpty then throw .noDocuments
  paths.flatten.mapM fun path => do return .ofText options path (← readText storage path)

def formatText (input : String) (out : Option String) (inPlace stripComments : Bool) :
    ExceptT CommandError m Outcome := do
  if inPlace && out.isSome then throw .twoOutputs
  match Schemata.format (← readText storage input) stripComments with
  | .error error => throw (.notFormatted input error)
  | .ok formatted =>
      match inPlace, out with
      | true, _ => writeText storage "formatted" input formatted
      | false, some path => writeText storage "wrote" path formatted
      | false, none => return .printed formatted

def policies (input text : String) : Except CommandError Bundle := do
  let document ← (Document.read text).mapError (.malformed input)
  let validation := document.validate .standard
  if validation.isValid then validation.schema.bundle.mapError .notLowered
  else .error (.invalid input (validation.diagnostics.filter Diagnostic.isError))

def lowerText (input : String) (out : Option String) : ExceptT CommandError m Outcome := do
  match policies input (← readText storage input) with
  | .error error => throw error
  | .ok bundle =>
      let text := unlines [bundle.toJson.pretty]
      match out with
      | some path => writeText storage "wrote" path text
      | none => return .printed text

def tryRun : Command → ExceptT CommandError m Outcome
  | .validate inputs options asJson => do
      return .ofReports asJson (← validateAll storage options inputs)
  | .format input out inPlace stripComments =>
      formatText storage input out inPlace stripComments
  | .policy input out => lowerText storage input out

def run (command : Command) : m Outcome := do
  match ← (command.tryRun storage).run with
  | .ok outcome => return outcome
  | .error error => return .ofError error

end Command

end Schemata
