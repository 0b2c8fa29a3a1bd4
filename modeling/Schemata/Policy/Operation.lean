import Schemata.Text.Blank

set_option autoImplicit false

namespace Schemata

inductive Operation
  | create
  | read
  | update
  | delete
deriving Repr, DecidableEq, Inhabited

namespace Operation

def all : List Operation := [.create, .read, .update, .delete]

def name : Operation → String
  | .create => "create"
  | .read => "read"
  | .update => "update"
  | .delete => "delete"

def ofName? (name : String) : Option Operation :=
  all.find? (·.name == name)

def appliesToFields : Operation → Bool
  | .read | .update => true
  | _ => false

def splitCommas : List Char → List (List Char)
  | [] => [[]]
  | char :: rest =>
      if char = ',' then [] :: splitCommas rest
      else
        match splitCommas rest with
        | [] => [[char]]
        | first :: others => (char :: first) :: others

def ofWord? (fieldLevel : Bool) (word : String) : Option (List Operation) :=
  let known := all.filter fun operation => !fieldLevel || operation.appliesToFields
  if word = "all" then some known
  else (ofName? word).bind fun operation => if operation ∈ known then some [operation] else none

def gather (fieldLevel : Bool) : List (List Char) → Except String (List Operation)
  | [] => .ok []
  | text :: rest =>
      let word := String.ofList (trimBlanks text)
      match ofWord? fieldLevel word with
      | none => .error word
      | some operations => (gather fieldLevel rest).map (operations ++ ·)

/--
Read a list of operations separated by commas. Every operation counts once, and their order is
fixed.
-/
def readList (fieldLevel : Bool) (text : String) : Except String (List Operation) :=
  (gather fieldLevel (splitCommas text.toList)).map fun named =>
    all.filter fun operation => operation ∈ named

end Operation

end Schemata
