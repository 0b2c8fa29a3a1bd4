set_option autoImplicit false

namespace Schemata

inductive FileError
  | missing
  | notADirectory
  | isADirectory
  | other (text : String)
deriving Repr, DecidableEq

def FileError.message : FileError → String
  | .missing => "No such file or directory (os error 2)"
  | .notADirectory => "Not a directory (os error 20)"
  | .isADirectory => "Is a directory (os error 21)"
  | .other text => text

/-- The names of the directories down to a file and of the file itself. -/
abbrev Place := List String

def Place.precedes : Place → Place → Bool
  | [], _ => true
  | _ :: _, [] => false
  | left :: lefts, right :: rights => left < right || (left == right && Place.precedes lefts rights)

structure Storage (m : Type → Type) where
  filesBeneath? : String → m (Option (List Place))
  hasFile : String → m Bool
  read : String → m (Except FileError String)
  write : String → String → m (Except FileError Unit)

/-- The texts of some files. A directory exists if a file lies beneath it. -/
structure Folder where
  files : List (Place × String)
deriving Repr, DecidableEq, Inhabited

namespace Folder

def steps (path : String) : List String := path.splitOn "/"

def ofFiles (files : List (String × String)) : Folder :=
  ⟨files.map fun (path, text) => ((steps path).filter fun step => step ≠ "" ∧ step ≠ ".", text)⟩

variable (folder : Folder)

def text? (place : Place) : Option String := folder.files.lookup place

def beneath (place : Place) : List Place :=
  folder.files.filterMap fun (other, _) =>
    if place.isPrefixOf other && place.length < other.length then some (other.drop place.length)
    else none

def hasDirectory (place : Place) : Bool := place.isEmpty || !(folder.beneath place).isEmpty

def walk (place : Place) (step : String) : Except FileError Place :=
  if folder.hasDirectory place then
    .ok (if step = "" ∨ step = "." then place
      else if step = ".." then place.dropLast
      else place ++ [step])
  else if (folder.text? place).isSome then .error .notADirectory
  else .error .missing

def place (path : String) : Except FileError Place := (steps path).foldlM folder.walk []

def filesBeneath? (path : String) : Option (List Place) :=
  match folder.place path with
  | .ok place => if folder.hasDirectory place then some (folder.beneath place) else none
  | .error _ => none

def read (path : String) : Except FileError String := do
  let place ← folder.place path
  match folder.text? place with
  | some text => .ok text
  | none => .error (if folder.hasDirectory place then .isADirectory else .missing)

def hasFile (path : String) : Bool := (folder.read path).isOk

def write (path text : String) : Except FileError Folder := do
  let place ← folder.place path
  if folder.hasDirectory place then .error .isADirectory else .ok ⟨(place, text) :: folder.files⟩

def storage : Storage (StateM Folder) where
  filesBeneath? path := do return (← get).filesBeneath? path
  hasFile path := do return (← get).hasFile path
  read path := do return (← get).read path
  write path text := do
    match (← get).write path text with
    | .ok folder => set folder; return .ok ()
    | .error error => return .error error

end Folder

end Schemata
